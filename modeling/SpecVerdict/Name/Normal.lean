import SpecVerdict.Name.Parts

namespace SpecVerdict

def isNameSeparator (c : Char) : Bool := isBlank c || c == '-' || c == '_'

namespace Text

/-- The first of the endings that the text has, cut off; never the whole text. -/
def cutEnding? (endings : List Text) (t : Text) : Option Text :=
  (endings.find? fun e => !e.isEmpty && endsWith e t && e.length < t.length).map fun e =>
    t.take (t.length - e.length)

theorem cutEnding?_length {endings : List Text} {t u : Text} (h : cutEnding? endings t = some u) :
    u.length < t.length := by
  obtain ⟨e, he, rfl⟩ := Option.map_eq_some_iff.mp h
  have hp := List.find?_some he
  simp only [Bool.and_eq_true, Bool.not_eq_true', List.isEmpty_eq_false_iff, decide_eq_true_eq] at hp
  have := List.length_pos_iff.mpr hp.1.1
  simp only [List.length_take]
  omega

/-- The text without any of the endings, as often as they occur; never cut down to nothing. -/
def cutEndings (endings : List Text) (t : Text) : Text :=
  match _h : cutEnding? endings t with
  | some u => cutEndings endings u
  | none => t
termination_by t.length
decreasing_by exact cutEnding?_length _h

def normalName (t : Text) : Text :=
  cutEndings ["feature".toList] (lower (t.filter (!isNameSeparator ·)))

def cutClassEndings (t : Text) : Text :=
  cutEndings ["features".toList, "feature".toList, "tests".toList, "test".toList] t

def pathName (path : Text) : Text :=
  let slashes := path.map fun c => if c == '\\' then '/' else c
  let file := afterLast '/' (dropEndWhile (· == '/') slashes)
  let lowered := lower file
  let cut := [".feature.cs".toList, ".feature".toList].find? (endsWith · lowered)
  normalName (file.take (file.length - (cut.getD []).length))

/-- The words in lower case with one space between them: the form in which step texts are
compared. -/
def normalText (t : Text) : Text := lower (join [' '] (words t))

/-- A space before every capital that follows a small letter or a digit. -/
def spaceCapitals : Text → Text
  | c :: d :: t =>
    if (c.isLower || c.isDigit) && d.isUpper then c :: ' ' :: spaceCapitals (d :: t)
    else c :: spaceCapitals (d :: t)
  | t => t

end Text

/-- The form in which names of features and scenarios are compared. -/
def nameKey (name : String) : String := onText Text.normalName name

def baseKey (name : String) : String := nameKey (baseName name)

def coreOf (name : String) : String := onText Text.cutClassEndings name

def coreKey (name : String) : String := coreOf (nameKey name)

/-- The form in which file names are compared; no path has the empty one. -/
def fileKey (path : String) : String := onText Text.pathName path

def phraseKey (text : String) : String := onText Text.normalText text

def spacedWords (name : String) : String := onText Text.spaceCapitals name

end SpecVerdict
