import SpecVerdict.Config.EnvFile
import SpecVerdict.Config.Load
import SpecVerdict.Yaml.Parser

namespace SpecVerdict

namespace ConfigReaders

def plainContent (content : ByteArray) : Except ReadingFault ConfigValue :=
  match FileText.decode? content with
  | none => .error (.raised "UnicodeDecodeError")
  | some text =>
    match Yaml.parse text.toList with
    | .error .malformed => .error .malformed
    | .error .valueless => .error (.raised "ValueError")
    | .ok value => .ok value

def plainVariables (disk : Disk) (path : Option String) (vars : List (String × String)) :
    Except String (List (String × String)) :=
  match path.bind disk.content? with
  | none => .ok vars
  | some content =>
    match FileText.decode? content with
    | none => .error "UnicodeDecodeError"
    | some text => .ok (EnvFile.extend vars text)

/-- Readers of configuration text without tags, directives, block scalars and times of day. They look
for no file that they are not told of. -/
def plain : ConfigReaders := ⟨plainContent, plainVariables⟩

end ConfigReaders

end SpecVerdict
