/-! Filling the placeholders of a message. -/
namespace Exclaim.Template

/-- Replaces every occurrence of `pattern`, from left to right and without overlap. The first
`skip` characters belong to an occurrence already replaced. -/
def replaceFrom (pattern new : List Char) : Nat → List Char → List Char
  | _, [] => []
  | skip + 1, _ :: cs => replaceFrom pattern new skip cs
  | 0, c :: cs =>
      if pattern.isPrefixOf (c :: cs) then new ++ replaceFrom pattern new (pattern.length - 1) cs
      else c :: replaceFrom pattern new 0 cs

def replaceAll (pattern new text : List Char) : List Char := replaceFrom pattern new 0 text

/-- The placeholder of the argument at `index`: its number in curly brackets. -/
def placeholder (index : Nat) : List Char := '\x7b' :: (toString index).toList ++ ['\x7d']

/-- Replaces the placeholders from number `index` on, one argument after the other. An argument
that holds a later placeholder has that one replaced too. -/
def fillFrom (index : Nat) (text : List Char) : List String → List Char
  | [] => text
  | arg :: args => fillFrom (index + 1) (replaceAll (placeholder index) arg.toList text) args

/-- A template with the placeholders `{0}`, `{1}`, … replaced by the arguments in turn. -/
def fill (template : String) (args : List String) : String :=
  String.ofList (fillFrom 0 template.toList args)

@[simp] theorem fill_nil (template : String) : fill template [] = template := by
  simp [fill, fillFrom]

end Exclaim.Template
