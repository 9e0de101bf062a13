import NetReplay.Text.Alphanumeric
import NetReplay.Text.Blank
import NetReplay.Word

/-!
# Filters of a log

A filter is a list of directives separated by commas, each a level, a target,
or a target and a level joined by an equals sign. Levels are words, read without
regard to case, or numbers up to 5. Blanks may stand around a directive without
an equals sign only. `Filter.accepts` says which texts are filters.
-/

namespace NetReplay

namespace Log

namespace Filter

def levels : List String := ["off", "error", "warn", "info", "debug", "trace"]

def maxLevel : UInt64 := 5

/-- Whether a text names a level; nothing stands for all levels. -/
def isLevel (text : List Char) : Bool :=
  let word := String.ofList text
  text.isEmpty || levels.contains (Text.lower word) || (Word.ofDecimal? word).any (· ≤ maxLevel)

/-- Whether a directive may start with a character. -/
def startsDirective (c : Char) : Bool :=
  Text.alphanumeric c || c == '-' || c == ':' || c == '_'

def isDirective (text : List Char) : Bool :=
  match text.dropWhile Text.blank with
  | [] => false
  | c :: _ =>
    startsDirective c &&
      match text.dropWhile (· != '=') with
      | [] => true
      | _ :: level => !text.head?.any Text.blank && isLevel level

/-- The pieces of a text between commas. -/
def pieces (text : String) : List (List Char) := text.toList.splitOn ','

def accepts (text : String) : Bool :=
  ((pieces text).filter (!·.isEmpty)).all isDirective

end Filter

end Log

end NetReplay
