import SpecVerdict.Xml.Node
import Mathlib.Data.List.Forall2
import Mathlib.Data.List.Nodup

namespace SpecVerdict

namespace XmlNode

variable {n m : XmlNode} {ns : List XmlNode} {i : Nat} {p q : List Nat}
  {enters holds : XmlNode → Bool}

theorem isNamed_eq {key : String} (hkey : key ≠ "") (n : XmlNode) :
    n.isNamed key = (n.name == ⟨"", key⟩) := by
  cases n with
  | text chars =>
    have hname : (⟨"", ""⟩ : XmlName) ≠ ⟨"", key⟩ := fun h => hkey (XmlName.mk.inj h).2.symm
    simp [isNamed, isElement, name, hname]
  | element name attributes content => rfl

theorem elementsNamed_eq {key : String} (hkey : key ≠ "") (n : XmlNode) :
    n.elementsNamed key = n.elements.filter (·.isNamed key) := by
  rw [elementsNamed, elementsAt]
  refine List.filter_congr fun m _ => ?_
  rw [isNamed_eq hkey]

theorem childrenNamed_eq (key : String) (n : XmlNode) :
    n.childrenNamed key = n.content.filter (·.isNamed key) := by
  rw [childrenNamed, childrenAt, children, List.filter_filter]
  refine List.filter_congr fun c _ => ?_
  rw [isNamed, Bool.and_comm]

/-- An element whose names have no namespace. -/
def plain (name : String) (attributes : List (String × String)) (content : List XmlNode) :
    XmlNode :=
  .element ⟨"", name⟩ (attributes.map fun (key, value) => (⟨"", key⟩, value)) content

/-- What is true of a node if it is true of everything directly inside is true of all nodes. -/
theorem contentInduction {motive : XmlNode → Prop} (text : ∀ chars, motive (.text chars))
    (element : ∀ name attributes content, (∀ n ∈ content, motive n) →
      motive (.element name attributes content)) : ∀ n, motive n
  | .text chars => text chars
  | .element name attributes content =>
    element name attributes content fun n _ => contentInduction text element n

/-- The node at a place. -/
def at? : XmlNode → List Nat → Option XmlNode
  | n, [] => some n
  | n, i :: p => (n.content[i]?).bind (·.at? p)

theorem at?_cons_eq_some_iff :
    n.at? (i :: p) = some m ↔ ∃ c, n.content[i]? = some c ∧ c.at? p = some m :=
  Option.bind_eq_some_iff

theorem at?_append (n : XmlNode) (p q : List Nat) :
    n.at? (p ++ q) = (n.at? p).bind (·.at? q) := by
  induction p generalizing n with
  | nil => rfl
  | cons i p ih =>
    rw [List.cons_append, at?, at?, Option.bind_assoc]
    congr
    funext c
    exact ih c

mutual

/-- The places of the elements with a property, at or below a node and in document order, where
only some elements are entered. -/
def places (enters holds : XmlNode → Bool) : XmlNode → List (List Nat)
  | .text _ => []
  | .element name attributes content =>
    let n := XmlNode.element name attributes content
    (if holds n then [[]] else []) ++ if enters n then placesFrom enters holds 0 content else []

def placesFrom (enters holds : XmlNode → Bool) (i : Nat) : List XmlNode → List (List Nat)
  | [] => []
  | n :: ns => (places enters holds n).map (i :: ·) ++ placesFrom enters holds (i + 1) ns

end

theorem mem_placesFrom : p ∈ placesFrom enters holds i ns ↔
    ∃ j q c, p = (i + j) :: q ∧ ns[j]? = some c ∧ q ∈ c.places enters holds := by
  induction ns generalizing i with
  | nil => simp [placesFrom]
  | cons n ns ih =>
    rw [placesFrom, List.mem_append, List.mem_map, ih]
    constructor
    · rintro (⟨q, hq, rfl⟩ | ⟨j, q, c, rfl, hc, hq⟩)
      · exact ⟨0, q, n, rfl, rfl, hq⟩
      · exact ⟨j + 1, q, c, by rw [Nat.add_right_comm, Nat.add_assoc], hc, hq⟩
    · rintro ⟨_ | j, q, c, rfl, hc, hq⟩
      · exact .inl ⟨q, Option.some.inj hc ▸ hq, rfl⟩
      · exact .inr ⟨j, q, c, by rw [Nat.add_right_comm, Nat.add_assoc], hc, hq⟩

theorem nil_notMem_placesFrom : [] ∉ placesFrom enters holds i ns := by
  intro h
  obtain ⟨j, q, c, h, -⟩ := mem_placesFrom.mp h
  cases h

theorem nil_mem_places : [] ∈ n.places enters holds ↔ n.isElement = true ∧ holds n = true := by
  cases n with
  | text chars => simp [places, isElement]
  | element name attributes content =>
    rw [places, List.mem_append]
    split <;> split <;> simp_all [isElement, nil_notMem_placesFrom]

theorem cons_mem_places : i :: p ∈ n.places enters holds ↔
    enters n = true ∧ ∃ c, n.content[i]? = some c ∧ p ∈ c.places enters holds := by
  cases n with
  | text chars => simp [places, content]
  | element name attributes content =>
    have hself : ∀ b : Bool, i :: p ∉ (if b then [[]] else [] : List (List Nat)) := by
      intro b
      cases b <;> simp
    rw [places, List.mem_append, or_iff_right (hself _)]
    by_cases henters : enters (.element name attributes content) = true
    · rw [if_pos henters, mem_placesFrom]
      constructor
      · rintro ⟨j, q, c, h, hc, hq⟩
        obtain ⟨rfl, rfl⟩ := List.cons.inj h
        exact ⟨henters, c, by rwa [Nat.zero_add], hq⟩
      · rintro ⟨-, c, hc, hq⟩
        exact ⟨i, p, c, by rw [Nat.zero_add], hc, hq⟩
    · simp [henters]

/-- The places are those of the elements with the property that are reached through elements that
are entered. -/
theorem mem_places : p ∈ n.places enters holds ↔
    (∃ m, n.at? p = some m ∧ m.isElement = true ∧ holds m = true) ∧
      ∀ q r m, p = q ++ r → r ≠ [] → n.at? q = some m → enters m = true := by
  -- On the way down the first element is the node itself, the others are those below its child.
  induction p generalizing n with
  | nil =>
    rw [nil_mem_places]
    constructor
    · intro h
      refine ⟨⟨n, rfl, h⟩, fun q r m hsplit hr => ?_⟩
      exact absurd (List.append_eq_nil_iff.mp hsplit.symm).2 hr
    · rintro ⟨⟨m, hm, h⟩, -⟩
      obtain rfl := Option.some.inj hm
      exact h
  | cons i p ih =>
    rw [cons_mem_places]
    constructor
    · rintro ⟨henters, c, hc, hp⟩
      obtain ⟨⟨m, hm, h⟩, hopen⟩ := ih.mp hp
      refine ⟨⟨m, at?_cons_eq_some_iff.mpr ⟨c, hc, hm⟩, h⟩, fun q r m' hsplit hr hq => ?_⟩
      cases q with
      | nil =>
        obtain rfl := Option.some.inj hq
        exact henters
      | cons j q =>
        obtain ⟨rfl, hrest⟩ := List.cons.inj hsplit
        obtain ⟨c', hc', hq⟩ := at?_cons_eq_some_iff.mp hq
        obtain rfl := Option.some.inj (hc.symm.trans hc')
        exact hopen q r m' hrest hr hq
    · rintro ⟨⟨m, hm, h⟩, hopen⟩
      obtain ⟨c, hc, hm⟩ := at?_cons_eq_some_iff.mp hm
      refine ⟨hopen [] (i :: p) n rfl (List.cons_ne_nil _ _) rfl, c, hc, ih.mpr ⟨⟨m, hm, h⟩, ?_⟩⟩
      intro q r m' hsplit hr hq
      exact hopen (i :: q) r m' (by rw [hsplit]; rfl) hr (at?_cons_eq_some_iff.mpr ⟨c, hc, hq⟩)

theorem nodup_placesFrom (h : ∀ n ∈ ns, (n.places enters holds).Nodup) (i : Nat) :
    (placesFrom enters holds i ns).Nodup := by
  induction ns generalizing i with
  | nil => exact List.nodup_nil
  | cons n ns ih =>
    obtain ⟨hn, hns⟩ := List.forall_mem_cons.mp h
    rw [placesFrom, List.nodup_append]
    refine ⟨hn.map (List.cons_injective), ih hns (i + 1), ?_⟩
    -- The places below the first node start with its position, all others with a later one.
    rintro p hp q hq rfl
    obtain ⟨p, -, rfl⟩ := List.mem_map.mp hp
    obtain ⟨j, q, c, hsame, -⟩ := mem_placesFrom.mp hq
    have := (List.cons.inj hsame).1
    omega

theorem nodup_places (n : XmlNode) : (n.places enters holds).Nodup := by
  induction n using contentInduction with
  | text chars => exact List.nodup_nil
  | element name attributes content ih =>
    rw [places, List.nodup_append]
    refine ⟨?_, ?_, ?_⟩
    · split <;> simp
    · split
      next => exact nodup_placesFrom ih 0
      next => exact List.nodup_nil
    · rintro p hp q hq rfl
      split at hp
      next =>
        obtain rfl := List.mem_singleton.mp hp
        split at hq
        next => exact nil_notMem_placesFrom hq
        next => cases hq
      next => cases hp

/-- What is listed for each node of a content belongs to the places there. -/
theorem forall₂_placesFrom {β : Type} {R : XmlNode → List Nat → β → Prop}
    {items : XmlNode → List β}
    (h : ∀ n ∈ ns, List.Forall₂ (R n) (n.places enters holds) (items n)) (i : Nat) :
    List.Forall₂ (fun p b => ∃ j q c, p = (i + j) :: q ∧ ns[j]? = some c ∧ R c q b)
      (placesFrom enters holds i ns) (ns.flatMap items) := by
  induction ns generalizing i with
  | nil => exact .nil
  | cons n ns ih =>
    obtain ⟨hn, hns⟩ := List.forall_mem_cons.mp h
    rw [placesFrom, List.flatMap_cons]
    refine List.rel_append (List.forall₂_map_left_iff.mpr (hn.imp fun q b hq => ?_))
      ((ih hns (i + 1)).imp fun p b hp => ?_)
    · exact ⟨0, q, n, rfl, rfl, hq⟩
    · obtain ⟨j, q, c, rfl, hc, hq⟩ := hp
      exact ⟨j + 1, q, c, by rw [Nat.add_right_comm, Nat.add_assoc], hc, hq⟩

theorem elementsOf_eq_flatMap (ns : List XmlNode) : elementsOf ns = ns.flatMap elements := by
  induction ns with
  | nil => rfl
  | cons n ns ih => rw [elementsOf, List.flatMap_cons, ih]

theorem mem_elements_of_at? (h : n.at? p = some m) (helement : m.isElement = true) :
    m ∈ n.elements := by
  induction p generalizing n with
  | nil =>
    obtain rfl := Option.some.inj h
    cases n with
    | text chars => cases helement
    | element name attributes content => exact List.mem_cons_self
  | cons i p ih =>
    obtain ⟨c, hc, hat⟩ := at?_cons_eq_some_iff.mp h
    cases n with
    | text chars => cases hc
    | element name attributes content =>
      rw [elements, elementsOf_eq_flatMap]
      exact List.mem_cons_of_mem _ (List.mem_flatMap.mpr ⟨c, List.mem_of_getElem? hc, ih hat⟩)

/-- The elements with a property, each with its place. -/
theorem elements_at_places (n : XmlNode) :
    List.Forall₂ (fun p m => n.at? p = some m ∧ holds m = true)
      (n.places (fun _ => true) holds) (n.elements.filter holds) := by
  induction n using contentInduction with
  | text chars => exact .nil
  | element name attributes content ih =>
    have hbelow : List.Forall₂
        (fun p m => (XmlNode.element name attributes content).at? p = some m ∧ holds m = true)
        (placesFrom (fun _ => true) holds 0 content)
        (content.flatMap fun n => n.elements.filter holds) := by
      refine (forall₂_placesFrom ih 0).imp fun p m hp => ?_
      obtain ⟨j, q, c, rfl, hc, hat, hm⟩ := hp
      exact ⟨at?_cons_eq_some_iff.mpr ⟨c, by rwa [Nat.zero_add], hat⟩, hm⟩
    rw [places, elements, elementsOf_eq_flatMap, List.filter_cons, List.filter_flatMap, if_pos rfl]
    split
    next hself => exact .cons ⟨rfl, hself⟩ hbelow
    next => exact hbelow

end XmlNode

end SpecVerdict
