import SpecVerdict.Gherkin.Dialect

namespace SpecVerdict

inductive Fence where
  | quotes
  | backticks
  deriving DecidableEq, Repr

def Fence.mark : Fence → String
  | .quotes => "\"\"\""
  | .backticks => "```"

inductive TokenKind where
  /-- the header that names the language -/
  | language (code : String)
  | header (role : HeaderRole) (keyword : String) (title : String)
  | step (role : StepRole) (keyword : String) (text : String)
  | tags (tags : List String)
  | row (cells : List String)
  | docString (fence : Fence) (mediaType : Option String) (content : String) (closed : Bool)
  | comment (text : String)
  | text (text : String)
  deriving DecidableEq, Repr

structure Token where
  line : Nat
  kind : TokenKind
  deriving DecidableEq, Repr

namespace Token

def keyword (t : Token) : String :=
  match t.kind with
  | .header _ keyword _ | .step _ keyword _ => keyword
  | .docString fence .. => fence.mark
  | _ => ""

end Token

end SpecVerdict
