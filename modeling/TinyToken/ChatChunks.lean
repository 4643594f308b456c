import Mathlib

/-! The chunks of a chat completion stream, with the fields that the converters read. -/
namespace ChatChunks

structure Usage where
  promptTokens : ℤ
  completionTokens : ℤ
  cachedTokens : ℤ
  cachedCreationTokens : ℤ
  claudeCacheCreation5mTokens : ℤ
  claudeCacheCreation1hTokens : ℤ
  deriving DecidableEq

/-- `ValidUsage`. -/
def validUsage : Option Usage → Bool
  | some usage => usage.promptTokens ≠ 0 || usage.completionTokens ≠ 0
  | none => false

structure ToolCall where
  index : Option ℤ
  id : String
  name : String
  arguments : String
  deriving DecidableEq

structure Delta where
  content : Option String
  reasoningContent : Option String
  reasoning : Option String
  toolCalls : List ToolCall
  deriving DecidableEq

def Delta.getContentString (delta : Delta) : String := delta.content.getD ""

def Delta.getReasoningContent (delta : Delta) : String :=
  (delta.reasoningContent <|> delta.reasoning).getD ""

structure Choice where
  delta : Delta
  finishReason : Option String
  deriving DecidableEq

def Choice.finish (choice : Choice) : Option String := choice.finishReason.filter (· ≠ "")

structure Chunk where
  id : String
  model : String
  choices : List Choice
  usage : Option Usage
  deriving DecidableEq

def joined : List String → String
  | [] => ""
  | s :: l => s ++ joined l

@[simp] theorem joined_nil : joined [] = "" := rfl

@[simp] theorem joined_cons (s : String) (l : List String) : joined (s :: l) = s ++ joined l := rfl

@[simp] theorem joined_append (l m : List String) : joined (l ++ m) = joined l ++ joined m := by
  induction l with
  | nil => simp
  | cons s l ih => simp [ih, String.append_assoc]

end ChatChunks
