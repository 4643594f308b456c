import Mathlib

/-! Tables with a unique key. The uniqueness is a field of the table, so no operation
can produce two rows under one key. -/
namespace KeyedTable

open List

structure Table (V K : Type) (key : V → K) where
  rows : List V
  nodup : (rows.map key).Nodup

/-- Two rows with one entry in a column without duplicates are the same row. -/
theorem eq_of_filterMap_nodup {β γ : Type} {f : β → Option γ} {l : List β}
    (h : (l.filterMap f).Nodup) {a b : β} (ha : a ∈ l) (hb : b ∈ l) {x : γ} (hfa : f a = some x)
    (hfb : f b = some x) : a = b := by
  induction l with
  | nil => cases ha
  | cons y l ih =>
    cases hfy : f y with
    | none =>
      rw [filterMap_cons_none hfy] at h
      rcases mem_cons.mp ha with rfl | ha
      · rw [hfa] at hfy; cases hfy
      rcases mem_cons.mp hb with rfl | hb
      · rw [hfb] at hfy; cases hfy
      exact ih h ha hb
    | some z =>
      rw [filterMap_cons_some hfy, nodup_cons] at h
      have hout : ∀ w ∈ l, f w = some x → f y ≠ some x := by
        intro w hw hfw hyx
        rw [hfy] at hyx
        cases hyx
        exact h.1 (mem_filterMap.mpr ⟨w, hw, hfw⟩)
      rcases mem_cons.mp ha with rfl | ha'
      · rcases mem_cons.mp hb with rfl | hb'
        · rfl
        · exact absurd hfa (hout b hb' hfb)
      · rcases mem_cons.mp hb with rfl | hb'
        · exact absurd hfb (hout a ha' hfa)
        · exact ih h.2 ha' hb'

variable {K V : Type} [DecidableEq K] {key : V → K}

namespace Table

def find? (t : Table V K key) (k : K) : Option V := t.rows.find? fun v => key v = k

def empty : Table V K key := ⟨[], nodup_nil⟩

variable {t : Table V K key} {v : V}

theorem find?_some_key {k : K} (h : t.find? k = some v) : key v = k := by
  simpa using find?_some h

theorem find?_some_mem {k : K} (h : t.find? k = some v) : v ∈ t.rows := mem_of_find?_eq_some h

theorem find?_eq_none_iff {k : K} : t.find? k = none ↔ ∀ v ∈ t.rows, key v ≠ k := by
  simp [find?]

/-- Under a unique key a row is found exactly when it is in the table. -/
theorem find?_of_mem (h : v ∈ t.rows) : t.find? (key v) = some v := by
  obtain ⟨rows, nodup⟩ := t
  simp only [find?]
  induction rows with
  | nil => cases h
  | cons a l ih =>
    have hn := nodup
    simp only [map_cons, nodup_cons] at hn
    rcases mem_cons.mp h with rfl | hl
    · simp
    · have hne : key a ≠ key v := by
        intro he
        exact hn.1 (mem_map.mpr ⟨v, hl, he.symm⟩)
      simpa [find?_cons, hne] using ih hn.2 hl

theorem eq_of_mem_key {v w : V} (hv : v ∈ t.rows) (hw : w ∈ t.rows)
    (h : key v = key w) : v = w := by
  have e := find?_of_mem hv
  rw [h, find?_of_mem hw] at e
  exact (Option.some.inj e).symm

/-- Replaces the row under the same key; a table without such a row is unchanged. -/
def replace (t : Table V K key) (v : V) : Table V K key where
  rows := t.rows.map fun w => if key w = key v then v else w
  nodup := by
    have e : (t.rows.map fun w => if key w = key v then v else w).map key = t.rows.map key := by
      rw [map_map]
      apply map_congr_left
      intro w _
      simp only [Function.comp]
      split
      · rename_i h; exact h.symm
      · rfl
    rw [e]
    exact t.nodup

/-- Appends a row under a new key; a table that has the key already is unchanged. -/
def insert (t : Table V K key) (v : V) : Table V K key :=
  if h : t.find? (key v) = none then
    { rows := t.rows ++ [v]
      nodup := by
        rw [map_append, map_singleton]
        refine nodup_append.mpr ⟨t.nodup, nodup_singleton _, ?_⟩
        intro a ha b hb
        obtain ⟨w, hw, rfl⟩ := mem_map.mp ha
        rw [mem_singleton.mp hb]
        exact find?_eq_none_iff.mp h w hw }
  else t

def save (t : Table V K key) (v : V) : Table V K key :=
  if t.find? (key v) = none then t.insert v else t.replace v

def erase (t : Table V K key) (k : K) : Table V K key where
  rows := t.rows.filter fun v => key v ≠ k
  nodup := (filter_sublist.map key).nodup t.nodup

/-- A change of every row that keeps its key. -/
def modify (t : Table V K key) (f : V → V) (hf : ∀ v, key (f v) = key v) : Table V K key where
  rows := t.rows.map f
  nodup := by
    have e : (t.rows.map f).map key = t.rows.map key := by
      rw [map_map]
      exact map_congr_left fun v _ => hf v
    rw [e]
    exact t.nodup

omit [DecidableEq K] in
@[ext] theorem ext {t u : Table V K key} (h : t.rows = u.rows) : t = u := by
  cases t; cases u; cases h; rfl

theorem insert_rows (h : t.find? (key v) = none) : (t.insert v).rows = t.rows ++ [v] := by
  simp [insert, h]

theorem save_of_find? {v w : V} (h : t.find? (key v) = some w) : t.save v = t.replace v := by
  simp [save, h]

theorem find?_replace (k : K) :
    (t.replace v).find? k = if k = key v then (t.find? k).map (fun _ => v) else t.find? k := by
  simp only [find?, replace]
  induction t.rows with
  | nil => simp
  | cons a l ih =>
    by_cases ha : key a = key v
    · by_cases hk : k = key v
      · simp [ha, hk]
      · have hk' : ¬ key v = k := fun e => hk e.symm
        simp only [map_cons, ha, if_true, find?_cons, hk', decide_false, hk, if_false]
        rw [ih, if_neg hk]
    · by_cases hk : key a = k
      · have hkv : ¬ k = key v := fun e => ha (hk.trans e)
        simp [hk, hkv]
      · simp only [map_cons, ha, if_false, find?_cons, hk, decide_false]
        exact ih

theorem find?_save (t : Table V K key) (v : V) (k : K) :
    (t.save v).find? k = if k = key v then some v else t.find? k := by
  unfold save
  split
  next h =>
    simp only [find?, insert_rows h, find?_append]
    by_cases hk : k = key v
    · subst hk
      have h' : t.rows.find? (fun w => key w = key v) = none := h
      simp [h']
    · have hk' : ¬ key v = k := fun e => hk e.symm
      simp [hk, hk']
  next h =>
    rw [find?_replace]
    split
    next hk =>
      obtain ⟨w, hw⟩ := Option.ne_none_iff_exists'.mp h
      rw [hk, hw]
      rfl
    · rfl

theorem save_of_mem (h : t.find? (key v) = some v) : t.save v = t := by
  rw [save_of_find? h]
  apply ext
  change t.rows.map _ = t.rows
  rw [map_congr_left (g := id)]
  · rw [map_id]
  · intro w hw
    split
    next hk =>
      exact eq_of_mem_key (find?_some_mem h) hw hk.symm
    · rfl

/-- The second of two saves under one key is the one that stays. -/
theorem save_save {u v w : V} (h : t.find? (key v) = some u)
    (hk : key w = key v) : (t.save v).save w = t.save w := by
  have hv : (t.save v).find? (key w) = some v := by rw [find?_save, if_pos hk]
  have hw : t.find? (key w) = some u := by rw [hk, h]
  rw [save_of_find? hv, save_of_find? hw, save_of_find? h]
  apply ext
  change (t.rows.map _).map _ = t.rows.map _
  rw [map_map]
  apply map_congr_left
  intro r _
  simp only [Function.comp_apply, hk]
  by_cases hr : key r = key v
  · rw [if_pos hr, if_pos rfl, if_pos hr]
  · rw [if_neg hr, if_neg hr]

theorem find?_insert_self (h : t.find? (key v) = none) : (t.insert v).find? (key v) = some v :=
  find?_of_mem (by rw [insert_rows h]; simp)

theorem find?_insert_of_ne {k : K} (hk : k ≠ key v) : (t.insert v).find? k = t.find? k := by
  unfold insert
  split
  · have hk' : ¬ key v = k := fun e => hk e.symm
    simp [find?, hk']
  · rfl

theorem find?_erase (t : Table V K key) (k j : K) :
    (t.erase k).find? j = if j = k then none else t.find? j := by
  simp only [find?, erase, find?_filter]
  split
  next h =>
    subst h
    simp
  next h =>
    congr 1
    funext v
    by_cases hv : key v = j
    · simp [hv, h]
    · simp [hv]

theorem find?_modify (t : Table V K key) (f : V → V) (hf : ∀ v, key (f v) = key v) (k : K) :
    (t.modify f hf).find? k = (t.find? k).map f := by
  simp only [find?, modify, find?_map]
  congr 2
  funext v
  simp [hf]

/-- The sum of a column over the rows. -/
def total (t : Table V K key) (f : V → ℤ) : ℤ := (t.rows.map f).sum

theorem total_replace {v w : V} (f : V → ℤ)
    (h : t.find? (key v) = some w) : (t.replace v).total f = t.total f - f w + f v := by
  have hmem := find?_some_mem h
  have hkey := find?_some_key h
  clear h
  obtain ⟨rows, nodup⟩ := t
  simp only [total, replace] at hmem ⊢
  induction rows with
  | nil => cases hmem
  | cons a l ih =>
    have hn := nodup
    simp only [map_cons, nodup_cons] at hn
    by_cases ha : key a = key v
    · have hl : ∀ u ∈ l, key u ≠ key v := by
        intro u hu he
        exact hn.1 (mem_map.mpr ⟨u, hu, he.trans ha.symm⟩)
      have haw : w = a := by
        rcases mem_cons.mp hmem with e | hm
        · exact e
        · exact absurd hkey (hl w hm)
      have hlmap : l.map (fun u => if key u = key v then v else u) = l := by
        rw [map_congr_left (g := id)]
        · simp
        · intro u hu
          simp [hl u hu]
      subst haw
      simp only [map_cons, ha, if_true, sum_cons, hlmap]
      omega
    · have hm : w ∈ l := by
        rcases mem_cons.mp hmem with e | hm
        · subst e
          exact absurd hkey ha
        · exact hm
      simp only [map_cons, ha, if_false, sum_cons, ih hn.2 hm]
      omega

omit [DecidableEq K] in
/-- Two columns that differ in one row only. -/
theorem total_change {f g : V → ℤ} (hv : v ∈ t.rows)
    (h : ∀ w ∈ t.rows, key w ≠ key v → g w = f w) : t.total g = t.total f - f v + g v := by
  obtain ⟨rows, nodup⟩ := t
  simp only [total] at hv h ⊢
  induction rows with
  | nil => cases hv
  | cons a l ih =>
    have hn := nodup
    simp only [map_cons, nodup_cons] at hn
    simp only [map_cons, sum_cons]
    rcases mem_cons.mp hv with rfl | hl
    · have hrest : l.map g = l.map f := by
        apply map_congr_left
        intro w hw
        apply h w (mem_cons_of_mem v hw)
        intro he
        exact hn.1 (mem_map.mpr ⟨w, hw, he⟩)
      rw [hrest]
      omega
    · have hne : key a ≠ key v := fun he => hn.1 (mem_map.mpr ⟨v, hl, he.symm⟩)
      rw [ih hn.2 hl (fun w hw => h w (mem_cons_of_mem a hw)), h a mem_cons_self hne]
      omega

end Table

end KeyedTable
