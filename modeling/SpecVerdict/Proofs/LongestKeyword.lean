import SpecVerdict.Gherkin.Dialect
import SpecVerdict.Proofs.TextPieces
import Mathlib.Tactic.WLOG

namespace SpecVerdict

variable {line rest rest' : Text}

namespace KeywordEntry

variable {e e' : KeywordEntry}

/-- Whether a keyword applies to a line and leaves the rest: a header's keyword is followed by a
colon, and a step's keyword ends in an apostrophe or is followed by a space, a tab or nothing. -/
def Leaves (e : KeywordEntry) (line rest : Text) : Prop :=
  match e.role with
  | .header _ => line = e.keyword.toList ++ ':' :: rest
  | .step _ => line = e.keyword.toList ++ rest ∧ (e.keyword.toList.getLast? = some '\'' ∨
      rest.head? = some ' ' ∨ rest.head? = some '\t' ∨ rest = [])

/-- Whether a keyword applies to a line. -/
def Applies (e : KeywordEntry) (line : Text) : Prop := ∃ rest, e.Leaves line rest

theorem Leaves.starts (h : e.Leaves line rest) : e.keyword.toList <+: line := by
  obtain ⟨role | role, keyword⟩ := e
  · exact ⟨_, Eq.symm h⟩
  · exact ⟨_, h.1.symm⟩

theorem Leaves.unique (h : e.Leaves line rest) (h' : e.Leaves line rest') : rest = rest' := by
  obtain ⟨role | role, keyword⟩ := e
  · exact (List.cons.inj (List.append_cancel_left (Eq.trans (Eq.symm h) h'))).2
  · exact List.append_cancel_left (h.1.symm.trans h'.1)

/-- Of one length only one keyword applies to a line. -/
theorem keyword_eq_of_length (h : e.Applies line) (h' : e'.Applies line)
    (hlength : e.keyword.length = e'.keyword.length) : e.keyword = e'.keyword := by
  obtain ⟨rest, hrest⟩ := h
  obtain ⟨rest', hrest'⟩ := h'
  have hlengths : e.keyword.toList.length = e'.keyword.toList.length := by
    rwa [String.length_toList, String.length_toList]
  have hstarts :=
    List.prefix_of_prefix_length_le hrest.starts hrest'.starts (Nat.le_of_eq hlengths)
  exact String.toList_inj.mp (hstarts.eq_of_length hlengths)

theorem remainder?_header {role : HeaderRole} {keyword : String} {t : Text} :
    remainder? ⟨.header role, keyword⟩ line = some t ↔
      ∃ rest, Leaves ⟨.header role, keyword⟩ line rest ∧ t = Text.trim rest := by
  rw [remainder?, Option.bind_eq_some_iff]
  simp only [Text.after?_eq_some_iff]
  constructor
  · rintro ⟨tail, rfl, h⟩
    split at h
    next rest _ => exact ⟨rest, rfl, (Option.some.inj h).symm⟩
    all_goals contradiction
  · rintro ⟨rest, rfl, rfl⟩
    exact ⟨_, rfl, rfl⟩

theorem remainder?_step {role : StepRole} {keyword : String} {t : Text} :
    remainder? ⟨.step role, keyword⟩ line = some t ↔
      ∃ rest, Leaves ⟨.step role, keyword⟩ line rest ∧ t = Text.trim rest := by
  rw [remainder?, Option.bind_eq_some_iff]
  simp only [Text.after?_eq_some_iff, Leaves, and_assoc]
  refine exists_congr fun rest => and_congr_right fun _ => ?_
  cases rest with
  | nil =>
    have htrim : Text.trim [] = [] := rfl
    simp [htrim, eq_comm]
  | cons c rest =>
    rw [Option.ite_none_right_eq_some, Bool.or_eq_true, Text.endsWith_singleton_iff,
      Option.some_inj, eq_comm (a := t), or_comm]
    simp [isIndent]

/-- A remainder is what a keyword that applies leaves, trimmed. -/
theorem remainder?_eq_some_iff {t : Text} :
    e.remainder? line = some t ↔ ∃ rest, e.Leaves line rest ∧ t = Text.trim rest := by
  obtain ⟨role | role, keyword⟩ := e
  · exact remainder?_header
  · exact remainder?_step

theorem remainder?_eq_none_iff : e.remainder? line = none ↔ ¬e.Applies line := by
  rw [Option.eq_none_iff_forall_ne_some]
  constructor
  · rintro h ⟨rest, hrest⟩
    exact h _ (remainder?_eq_some_iff.mpr ⟨rest, hrest, rfl⟩)
  · intro h t ht
    obtain ⟨rest, hrest, -⟩ := remainder?_eq_some_iff.mp ht
    exact h ⟨rest, hrest⟩

end KeywordEntry

/-- Whether an entry between others applies to a line and leaves the rest, and of all entries that
apply none has a longer keyword and none before it the same one. -/
structure IsLongestAt (before : List KeywordEntry) (e : KeywordEntry) (after : List KeywordEntry)
    (line rest : Text) : Prop where
  leaves : e.Leaves line rest
  longest : ∀ e' ∈ before ++ e :: after, e'.Applies line → e'.keyword.length ≤ e.keyword.length
  first : ∀ e' ∈ before, e'.keyword = e.keyword → ¬e'.Applies line

/-- Whether a match is of the longest keyword that applies to a line, in the first role in which it
applies, with the rest of the line trimmed. -/
def IsLongest (entries : List KeywordEntry) (line : Text) (m : KeywordMatch) : Prop :=
  ∃ before e after rest, entries = before ++ e :: after ∧ IsLongestAt before e after line rest ∧
    m = ⟨e.role, e.keyword, Text.trim rest⟩

namespace IsLongest

variable {entries : List KeywordEntry} {e : KeywordEntry} {m m' : KeywordMatch}

theorem exists_applies (h : IsLongest entries line m) : ∃ e ∈ entries, e.Applies line := by
  obtain ⟨before, e, after, rest, rfl, hat, -⟩ := h
  exact ⟨e, by simp, rest, hat.leaves⟩

theorem length_le (h : IsLongest entries line m) (he : e ∈ entries) (happlies : e.Applies line) :
    e.keyword.length ≤ m.keyword.length := by
  obtain ⟨before, found, after, rest, rfl, hat, rfl⟩ := h
  exact hat.longest e he happlies

/-- The longest match stays the longest when an entry that is not longer comes after the others. -/
theorem keep (h : IsLongest entries line m)
    (he : e.Applies line → e.keyword.length ≤ m.keyword.length) :
    IsLongest (entries ++ [e]) line m := by
  obtain ⟨before, found, after, rest, rfl, hat, rfl⟩ := h
  refine ⟨before, found, after ++ [e], rest, by simp, ⟨hat.leaves, fun e' hm ha => ?_, hat.first⟩, rfl⟩
  rw [← List.cons_append, ← List.append_assoc, List.mem_append, List.mem_singleton] at hm
  rcases hm with hm | rfl
  · exact hat.longest e' hm ha
  · exact he ha

/-- An entry that is longer than all before it that apply takes their place. -/
theorem snoc (hleaves : e.Leaves line rest)
    (hlonger : ∀ e' ∈ entries, e'.Applies line → e'.keyword.length < e.keyword.length) :
    IsLongest (entries ++ [e]) line ⟨e.role, e.keyword, Text.trim rest⟩ := by
  refine ⟨entries, e, [], rest, rfl, ⟨hleaves, fun e' hm ha => ?_, fun e' hm heq ha => ?_⟩, rfl⟩
  · rcases List.mem_append.mp hm with hm | hm
    · exact Nat.le_of_lt (hlonger e' hm ha)
    · rw [List.mem_singleton.mp hm]
  · exact absurd (hlonger e' hm ha) (by rw [heq]; exact Nat.lt_irrefl _)

theorem unique (h : IsLongest entries line m) (h' : IsLongest entries line m') : m = m' := by
  obtain ⟨before, e, after, rest, hsplit, hat, rfl⟩ := h
  obtain ⟨before', e', after', rest', hsplit', hat', rfl⟩ := h'
  wlog hle : before.length ≤ before'.length generalizing before e after rest before' e' after' rest'
  · exact (this before' e' after' rest' hsplit' hat' before e after rest hsplit hat (by omega)).symm
  have happlies : e.Applies line := ⟨rest, hat.leaves⟩
  have happlies' : e'.Applies line := ⟨rest', hat'.leaves⟩
  have hkeyword : e.keyword = e'.keyword := by
    refine KeywordEntry.keyword_eq_of_length happlies happlies' (Nat.le_antisymm ?_ ?_)
    · exact hat'.longest e (by simp [← hsplit', hsplit]) happlies
    · exact hat.longest e' (by simp [← hsplit, hsplit']) happlies'
  obtain ⟨between, rfl⟩ := List.prefix_of_prefix_length_le ⟨_, hsplit.symm⟩ ⟨_, hsplit'.symm⟩ hle
  rw [hsplit, List.append_assoc, List.append_cancel_left_eq] at hsplit'
  cases between with
  | nil =>
    obtain ⟨rfl, -⟩ := List.cons.inj hsplit'
    rw [hat.leaves.unique hat'.leaves]
  -- The first of the two entries would stand before the other one, with the same keyword.
  | cons first between =>
    obtain ⟨rfl, -⟩ := List.cons.inj hsplit'
    exact absurd happlies (hat'.first e (by simp) hkeyword)

end IsLongest

/-- What entries make of a line: nothing if none of them applies, or else the longest match. -/
def IsBest (entries : List KeywordEntry) (line : Text) : Option KeywordMatch → Prop
  | none => ∀ e ∈ entries, ¬e.Applies line
  | some m => IsLongest entries line m

namespace IsBest

variable {entries : List KeywordEntry} {e : KeywordEntry} {best best' : Option KeywordMatch}

theorem unique (h : IsBest entries line best) (h' : IsBest entries line best') : best = best' := by
  cases best with
  | none =>
    cases best' with
    | none => rfl
    | some m' =>
      obtain ⟨e, he, happlies⟩ := IsLongest.exists_applies h'
      exact absurd happlies (h e he)
  | some m =>
    cases best' with
    | none =>
      obtain ⟨e, he, happlies⟩ := IsLongest.exists_applies h
      exact absurd happlies (h' e he)
    | some m' => exact congrArg some (IsLongest.unique h h')

/-- An entry that does not apply changes nothing. -/
theorem skip (h : IsBest entries line best) (he : ¬e.Applies line) :
    IsBest (entries ++ [e]) line best := by
  cases best with
  | none =>
    intro e' hm
    rcases List.mem_append.mp hm with hm | hm
    · exact h e' hm
    · rwa [List.mem_singleton.mp hm]
  | some m => exact IsLongest.keep h fun happlies => absurd happlies he

/-- The search over more entries finds what all of them make of the line. -/
theorem longest (h : IsBest entries line best) (later : List KeywordEntry) :
    IsBest (entries ++ later) line (Dialect.longest line best later) := by
  induction later generalizing entries best with
  | nil => simpa [Dialect.longest] using h
  | cons e later ih =>
    rw [List.append_cons]
    unfold Dialect.longest
    cases hrest : e.remainder? line with
    | none => exact ih (h.skip (KeywordEntry.remainder?_eq_none_iff.mp hrest))
    | some t =>
      obtain ⟨rest, hleaves, rfl⟩ := KeywordEntry.remainder?_eq_some_iff.mp hrest
      cases best with
      | none =>
        have hfound := IsLongest.snoc hleaves fun e' hm ha => absurd ha (h e' hm)
        exact @ih _ (some _) hfound
      | some m =>
        dsimp only
        split
        next hlt =>
          have hfound := IsLongest.snoc hleaves fun e' hm ha =>
            Nat.lt_of_le_of_lt (IsLongest.length_le h hm ha) hlt
          exact @ih _ (some _) hfound
        next hle =>
          have hkept := IsLongest.keep h fun _ => Nat.le_of_not_lt hle
          exact @ih _ (some _) hkept

end IsBest

/-- A line is not classified exactly if no keyword of the dialect applies to it. Otherwise it is
classified by the longest keyword that applies, in the first role in which it applies, and the rest
of the line is trimmed. -/
theorem longest_keyword_classifies (dialect : Dialect) (line : Text) :
    (dialect.classify? line = none ↔ ∀ e ∈ dialect.entries, ¬e.Applies line) ∧
      ∀ m, dialect.classify? line = some m ↔ IsLongest dialect.entries line m := by
  have hstart : IsBest [] line none := fun e he => absurd he List.not_mem_nil
  have hbest : IsBest dialect.entries line (dialect.classify? line) :=
    hstart.longest dialect.entries
  have hiff : ∀ best, dialect.classify? line = best ↔ IsBest dialect.entries line best :=
    fun best => ⟨fun h => h ▸ hbest, fun h => hbest.unique h⟩
  exact ⟨hiff none, fun m => hiff (some m)⟩

-- The longer "Sachant que" starts this line too, but no blank follows it.
example : frenchDialect.classify? "Sachant queue".toList =
    some ⟨.step .context, "Sachant", "queue".toList⟩ := by
  decide +kernel

end SpecVerdict
