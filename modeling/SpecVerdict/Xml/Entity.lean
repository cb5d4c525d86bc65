import SpecVerdict.Xml.Scan

namespace SpecVerdict

namespace Xml

inductive Entity where
  | internal (text : Text)
  | external
  deriving Repr

/-- An attribute that a document type declares for an element. -/
structure AttributeRule where
  element : QName
  name : QName
  /-- whether blanks in the value count as they are -/
  isText : Bool
  default : Option Text
  deriving Repr

structure Doctype where
  entities : List (Text × Entity) := []
  rules : List AttributeRule := []
  /-- whether entities may be declared where they are not read -/
  isOpen : Bool := false
  /-- whether declarations still count -/
  isRead : Bool := true
  /-- whether the document says that it needs nothing from outside -/
  standalone : Bool := false
  deriving Repr

abbrev Entities := List (Text × Entity)

def Entities.get? (entities : Entities) (name : Text) : Option Entity :=
  (entities.find? (·.1 == name)).map (·.2)

def Entities.without (entities : Entities) (name : Text) : Entities :=
  entities.filter (·.1 != name)

theorem Entities.without_length {entities : Entities} {name : Text} {e : Entity}
    (h : entities.get? name = some e) : (entities.without name).length < entities.length := by
  obtain ⟨p, hp, _⟩ := Option.map_eq_some_iff.mp h
  have hm := List.mem_of_find?_eq_some hp
  have ht := List.find?_some hp
  unfold Entities.without
  refine Nat.lt_of_le_of_ne (List.length_filter_le ..) fun he => ?_
  have := List.length_filter_eq_length_iff.mp he p hm
  simp_all

/-- A value with its references replaced and its blanks read as spaces. An entity may not refer
to itself, and an unknown one is left out where the document type is open. -/
def valueFrom (isOpen : Bool) (entities : Entities) (fuel : Nat) (t : Text) : Option Text :=
  match fuel, t with
  | _, [] => some []
  | 0, _ => none
  | fuel + 1, '&' :: t =>
    match reference? t with
    | none => none
    | some (.char c, rest) => (valueFrom isOpen entities fuel rest).map (c :: ·)
    | some (.entity name, rest) =>
      match _h : entities.get? name with
      | some (.internal text) =>
        (valueFrom isOpen (entities.without name) (text.length + 1) text).bind fun value =>
          (valueFrom isOpen entities fuel rest).map (value ++ ·)
      | some .external => none
      | none => if isOpen then valueFrom isOpen entities fuel rest else none
  | fuel + 1, '\r' :: '\n' :: t => (valueFrom isOpen entities fuel t).map (' ' :: ·)
  | fuel + 1, c :: t =>
    if c == '<' then none
    else (valueFrom isOpen entities fuel t).map ((if isSpace c then ' ' else c) :: ·)
termination_by (entities.length, fuel)
decreasing_by
  all_goals simp_wf
  all_goals first
    | (apply Prod.Lex.left; exact Entities.without_length _h)
    | (apply Prod.Lex.right; omega)

/-- Runs of spaces as one space, and none at the ends. -/
def collapseSpaces (t : Text) : Text :=
  Text.join [' '] ((Text.splitOn ' ' t).filter (!·.isEmpty))

def Doctype.value? (d : Doctype) (isText : Bool) (raw : Text) : Option Text :=
  (valueFrom (d.isOpen && !d.standalone) d.entities (raw.length + 1) raw).map fun value =>
    if isText then value else collapseSpaces value

end Xml

end SpecVerdict
