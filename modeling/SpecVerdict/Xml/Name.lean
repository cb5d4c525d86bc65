import SpecVerdict.Text.Basic

namespace SpecVerdict

structure XmlName where
  space : String := ""
  name : String
  deriving DecidableEq, Repr

namespace XmlName

def ofExpanded (s : String) : XmlName :=
  match s.toList with
  | '{' :: rest =>
    ⟨String.ofList (rest.takeWhile (· != '}')), String.ofList (Text.afterLast '}' ('{' :: rest))⟩
  | _ => ⟨"", s⟩

def plainSpace (n : XmlName) : String := onText (·.takeWhile (· != '}')) n.space

end XmlName

end SpecVerdict
