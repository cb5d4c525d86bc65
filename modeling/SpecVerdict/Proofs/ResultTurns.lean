import SpecVerdict.Correlation.ScenarioMatch
import SpecVerdict.Proofs.KeyedGroups
import Mathlib.Data.List.Basic

namespace SpecVerdict

/-- What every step of a fold keeps holds at its end. -/
theorem foldlM_induction {σ α : Type} {P : σ → Prop} {step : σ → α → Option σ} {xs : List α}
    {s s' : σ} (h : xs.foldlM step s = some s') (start : P s)
    (turn : ∀ x ∈ xs, ∀ s s', P s → step s x = some s' → P s') : P s' := by
  induction xs generalizing s with
  | nil =>
    cases h
    exact start
  | cons x xs ih =>
    rw [List.foldlM_cons] at h
    obtain ⟨next, hnext, hrest⟩ := Option.bind_eq_some_iff.mp h
    exact ih hrest (turn x List.mem_cons_self s next start hnext) fun y hy =>
      turn y (List.mem_cons_of_mem _ hy)

/-- Where what holds lets every step be made and is kept by it, a fold comes to its end. -/
theorem foldlM_exists {σ α : Type} {P : σ → Prop} {step : σ → α → Option σ} {xs : List α} {s : σ}
    (start : P s) (turn : ∀ x ∈ xs, ∀ s, P s → ∃ s', step s x = some s' ∧ P s') :
    ∃ s', xs.foldlM step s = some s' ∧ P s' := by
  induction xs generalizing s with
  | nil => exact ⟨s, rfl, start⟩
  | cons x xs ih =>
    obtain ⟨next, hnext, hkept⟩ := turn x List.mem_cons_self s start
    obtain ⟨s', hrest, hend⟩ := ih hkept fun y hy => turn y (List.mem_cons_of_mem _ hy)
    exact ⟨s', by rw [List.foldlM_cons, hnext]; exact hrest, hend⟩

namespace ScenarioMatch

/-- A match without its results, which is what no run changes. -/
def bare (m : ScenarioMatch) : ScenarioMatch := { m with found := [] }

theorem bare_of_fresh {m : ScenarioMatch} (h : m.found = []) : m.bare = m := by
  cases m
  cases h
  rfl

theorem node_attach (m : ScenarioMatch) (new : List Candidate) : (m.attach new).node = m.node := by
  unfold attach
  split <;> rfl

theorem mem_attach {m : ScenarioMatch} {new : List Candidate} {c : Candidate} :
    c ∈ (m.attach new).found ↔ c ∈ m.found ∨ c ∈ new := by
  unfold attach
  split
  next h => simp [List.isEmpty_iff.mp h]
  next => rw [(List.mergeSort_perm _ _).mem_iff, List.mem_append]

theorem attach?_eq_some {m m' : ScenarioMatch} {new : List Candidate} (h : m.attach? new = some m') :
    m' = m.attach new := by
  unfold attach? at h
  split at h
  next => exact (Option.some.inj h).symm
  next => cases h

theorem mem_free {m : ScenarioMatch} {claimed : List Place} {test : Candidate → Bool}
    {c : Candidate} :
    c ∈ m.free claimed test ↔ c ∈ m.candidates ∧ test c = true ∧ c.place ∉ claimed := by
  simp [free, List.mem_filter]

theorem firstFilled_mem {c : Candidate} {lists : List (List Candidate)}
    (h : c ∈ firstFilled lists) : ∃ found ∈ lists, c ∈ found := by
  induction lists with
  | nil => simp [firstFilled] at h
  | cons found rest ih =>
    rw [firstFilled] at h
    split at h
    next =>
      obtain ⟨other, hm, hc⟩ := ih h
      exact ⟨other, List.mem_cons_of_mem _ hm, hc⟩
    next => exact ⟨found, List.mem_cons_self, h⟩

end ScenarioMatch

namespace ScenarioMatch

variable {claimed : List Place} {m : ScenarioMatch} {c : Candidate}

theorem mem_takeExact (h : c ∈ m.takeExact claimed) :
    c ∈ m.candidates ∧ c.name = m.key ∧ c.place ∉ claimed := by
  obtain ⟨hm, hn, hfree⟩ := mem_free.mp h
  exact ⟨hm, beq_iff_eq.mp hn, hfree⟩

theorem mem_takeBase (h : c ∈ m.takeBase claimed) :
    c ∈ m.candidates ∧ c.base = m.key ∧ c.place ∉ claimed := by
  unfold takeBase at h
  split at h
  next =>
    obtain ⟨hm, hb, hfree⟩ := mem_free.mp h
    exact ⟨hm, beq_iff_eq.mp hb, hfree⟩
  next => simp at h

theorem mem_takeStem {least : Int} (h : c ∈ m.takeStem least claimed) :
    c ∈ m.candidates ∧ (m.scenario.isOutline = true ∧ least ≤ m.stem.toList.length ∧
      m.stem.toList.isPrefixOf c.base.toList = true) ∧ c.place ∉ claimed := by
  unfold takeStem at h
  dsimp only at h
  split at h
  next hlong =>
    obtain ⟨hm, hstart, hfree⟩ := mem_free.mp h
    simp only [Bool.and_eq_true, decide_eq_true_eq] at hlong
    exact ⟨hm, ⟨hlong.1, hlong.2, hstart⟩, hfree⟩
  next => simp at h

theorem mem_takePartial {settings : CorrelationSettings} (h : c ∈ m.takePartial settings claimed) :
    c ∈ m.candidates ∧ (settings.allowPartialMatch = true ∧
      areNested m.key.toList c.base.toList settings.minPartialLength = true) ∧
      c.place ∉ claimed := by
  unfold takePartial at h
  dsimp only at h
  split at h
  next hallowed =>
    have hfree : c ∈ m.free claimed fun c =>
        areNested m.key.toList c.base.toList settings.minPartialLength := by
      split at h
      next => exact h
      next => exact List.mem_of_mem_take h
    obtain ⟨hm, hnested, hfree⟩ := mem_free.mp hfree
    exact ⟨hm, ⟨hallowed, hnested⟩, hfree⟩
  next => simp at h

/-- Why the last run gives a result to a scenario. -/
theorem mem_takeResembling {settings : CorrelationSettings}
    (h : c ∈ m.takeResembling settings claimed) :
    c ∈ m.candidates ∧ (m.isPaired = true ∧
      (c.core = coreOf m.key ∨
        (m.scenario.isOutline = true ∧ settings.minPartialLength ≤ m.stem.toList.length ∧
          m.stem.toList.isPrefixOf c.base.toList = true) ∨
        settings.allowPartialMatch = true ∧
          areNested m.key.toList c.base.toList settings.minPartialLength = true)) ∧
      c.place ∉ claimed := by
  unfold takeResembling at h
  split at h
  next hopen =>
    have hpaired : m.isPaired = true := (Bool.and_eq_true_iff.mp hopen).1
    obtain ⟨found, hm, hc⟩ := firstFilled_mem h
    simp only [List.mem_cons, List.not_mem_nil, or_false] at hm
    rcases hm with rfl | rfl | rfl
    · obtain ⟨hm, hcore, hfree⟩ := mem_free.mp hc
      exact ⟨hm, ⟨hpaired, .inl (beq_iff_eq.mp hcore)⟩, hfree⟩
    · obtain ⟨hm, hstem, hfree⟩ := mem_takeStem hc
      exact ⟨hm, ⟨hpaired, .inr (.inl hstem)⟩, hfree⟩
    · obtain ⟨hm, hpart, hfree⟩ := mem_takePartial hc
      exact ⟨hm, ⟨hpaired, .inr (.inr hpart)⟩, hfree⟩
  next => simp at h

end ScenarioMatch

/-- A way of taking results that leaves alone what is claimed. -/
def TakesFree (take : List Place → ScenarioMatch → List Candidate) : Prop :=
  ∀ claimed m c, c ∈ take claimed m → c.place ∉ claimed

theorem takesFree_exact : TakesFree ScenarioMatch.takeExact := fun _ _ _ h =>
  (ScenarioMatch.mem_takeExact h).2.2

theorem takesFree_base : TakesFree ScenarioMatch.takeBase := fun _ _ _ h =>
  (ScenarioMatch.mem_takeBase h).2.2

theorem takesFree_resembling (settings : CorrelationSettings) :
    TakesFree (ScenarioMatch.takeResembling settings) := fun _ _ _ h =>
  (ScenarioMatch.mem_takeResembling h).2.2

theorem TakesFree.not_mem {take : List Place → ScenarioMatch → List Candidate} (free : TakesFree take)
    {claimed : List Place} {p : Place} (hp : p ∈ claimed) {m : ScenarioMatch} :
    ∀ c ∈ take claimed m, c.place ≠ p := by
  rintro c hc rfl
  exact free claimed m c hc hp

namespace Matching

variable {take : List Place → ScenarioMatch → List Candidate} {ms : List ScenarioMatch}
  {m : ScenarioMatch} {s s' : Matching} {n : ScenarioNode} {p : Place}

theorem turn?_claimed (h : s.turn? take m = some s') :
    s'.claimed = (take s.claimed m).map (·.place) ++ s.claimed := by
  obtain ⟨m', -, rfl⟩ := Option.map_eq_some_iff.mp h
  rfl

theorem turn?_resultsOf (h : s.turn? take m = some s') (n : ScenarioNode) :
    s'.resultsOf n = if n = m.node then (m.attach (take s.claimed m)).found else s.resultsOf n := by
  obtain ⟨m', hm', rfl⟩ := Option.map_eq_some_iff.mp h
  obtain rfl := ScenarioMatch.attach?_eq_some hm'
  unfold resultsOf
  rw [lookupKey_setKey, ScenarioMatch.node_attach]
  by_cases hn : n = m.node
  · simp [hn]
  · have hne : ¬(m.node == n) = true := by simpa using Ne.symm hn
    rw [if_neg hne, if_neg hn]

/-- The result at a place is attached to a node. -/
def Holds (s : Matching) (n : ScenarioNode) (p : Place) : Prop :=
  ∃ c ∈ s.resultsOf n, c.place = p

theorem holds_turn (h : s.turn? take m = some s') :
    s'.Holds n p ↔
      n = m.node ∧ ((∃ c ∈ m.found, c.place = p) ∨ ∃ c ∈ take s.claimed m, c.place = p) ∨
        n ≠ m.node ∧ s.Holds n p := by
  unfold Holds
  rw [turn?_resultsOf h]
  split
  next hn =>
    simp only [hn, true_and, ne_eq, not_true_eq_false, false_and, or_false, ScenarioMatch.mem_attach,
      or_and_right, exists_or]
  next hn => simp only [hn, false_and, false_or, ne_eq, not_false_eq_true, true_and]

/-- A turn in which a result is not taken leaves it where it is, apart from what the scenario has. -/
theorem holds_turn_passed (h : s.turn? take m = some s') (hnew : ∀ c ∈ take s.claimed m, c.place ≠ p)
    (n : ScenarioNode) :
    s'.Holds n p ↔ n = m.node ∧ (∃ c ∈ m.found, c.place = p) ∨ n ≠ m.node ∧ s.Holds n p := by
  have hnone : ¬∃ c ∈ take s.claimed m, c.place = p := fun ⟨c, hc, he⟩ => hnew c hc he
  rw [holds_turn h, or_iff_left hnone]

theorem proceed?_claims (h : s.proceed? take ms = some s') : s.claimed ⊆ s'.claimed := by
  refine foldlM_induction (P := fun s' => s.claimed ⊆ s'.claimed) h (List.Subset.refl _) ?_
  intro m _ s₁ s₂ hsub hturn
  rw [turn?_claimed hturn]
  exact List.Subset.trans hsub (List.subset_append_right _ _)

/-- What is claimed stays with whoever holds it in a further run. -/
theorem proceed?_keeps_claimed (free : TakesFree take) (h : s.proceed? take ms = some s')
    (hp : p ∈ s.claimed) : p ∈ s'.claimed ∧ ∀ n, s'.Holds n p ↔ s.Holds n p := by
  refine foldlM_induction (P := fun s' => p ∈ s'.claimed ∧ ∀ n, s'.Holds n p ↔ s.Holds n p) h
    ⟨hp, fun _ => Iff.rfl⟩ ?_
  rintro m - s₁ s₂ ⟨hclaimed, hholds⟩ hturn
  refine ⟨?_, fun n => ?_⟩
  · rw [turn?_claimed hturn]
    exact List.mem_append_right _ hclaimed
  · rw [holds_turn_passed hturn (free.not_mem hclaimed), ← hholds n]
    change n = m.node ∧ s₁.Holds m.node p ∨ n ≠ m.node ∧ s₁.Holds n p ↔ _
    by_cases hn : n = m.node
    · simp [hn]
    · simp [hn]

/-- Every result of a node was given to a scenario of the node for a reason. -/
def Backed (P : ScenarioMatch → Candidate → Prop) (ms : List ScenarioMatch) (s : Matching) : Prop :=
  ∀ n, ∀ c ∈ s.resultsOf n, ∃ m ∈ ms, m.node = n ∧ P m.bare c

theorem Backed.turn {P : ScenarioMatch → Candidate → Prop} (hs : Backed P ms s) (hm : m ∈ ms)
    (now : ScenarioMatch) (same : now.bare = m.bare)
    (had : ∀ c ∈ now.found, ∃ m' ∈ ms, m'.node = m.node ∧ P m'.bare c)
    (taken : ∀ c ∈ take s.claimed now, P now.bare c) (h : s.turn? take now = some s') :
    Backed P ms s' := by
  intro n c hc
  rw [turn?_resultsOf h] at hc
  have hnode : now.node = m.node := by
    change now.bare.node = m.bare.node
    rw [same]
  split at hc
  next hn =>
    rcases ScenarioMatch.mem_attach.mp hc with hold | hnew
    · rw [hn, hnode]
      exact had c hold
    · exact ⟨m, hm, by rw [hn, hnode], same ▸ taken c hnew⟩
  next => exact hs n c hc

theorem proceed?_backed {P : ScenarioMatch → Candidate → Prop}
    (taken : ∀ claimed m, ∀ c ∈ take claimed m, P m.bare c) (hs : Backed P ms s)
    (h : s.proceed? take ms = some s') : Backed P ms s' := by
  refine foldlM_induction (P := Backed P ms) h hs ?_
  intro m hm s₁ s₂ hbacked hturn
  exact hbacked.turn hm (s₁.withResults m) rfl (hbacked m.node) (taken _ _) hturn

section

variable (fresh : ∀ m ∈ ms, m.found = [])
include fresh

theorem start?_backed {P : ScenarioMatch → Candidate → Prop}
    (taken : ∀ claimed (m : ScenarioMatch), ∀ c ∈ m.takeExact claimed, P m.bare c)
    (h : start? ms = some s) :
    Backed P ms s := by
  refine foldlM_induction (P := Backed P ms) h (fun _ _ hc => nomatch hc) ?_
  intro m hm s₁ s₂ hbacked hturn
  refine hbacked.turn hm m rfl (fun c hc => ?_) (taken _ m) hturn
  rw [fresh m hm] at hc
  cases hc

/-- What holds of every result that one of the three runs gives to a scenario holds of all that a
node has in the end. -/
theorem ofScenarios?_backed {settings : CorrelationSettings}
    {P : ScenarioMatch → Candidate → Prop}
    (exact : ∀ claimed (m : ScenarioMatch), ∀ c ∈ m.takeExact claimed, P m.bare c)
    (base : ∀ claimed (m : ScenarioMatch), ∀ c ∈ m.takeBase claimed, P m.bare c)
    (resembling : ∀ claimed (m : ScenarioMatch), ∀ c ∈ m.takeResembling settings claimed,
      P m.bare c) (h : ofScenarios? settings ms = some s) : Backed P ms s := by
  obtain ⟨s₁, h₁, h⟩ := Option.bind_eq_some_iff.mp h
  obtain ⟨s₂, h₂, h₃⟩ := Option.bind_eq_some_iff.mp h
  exact proceed?_backed resembling (proceed?_backed base (start?_backed fresh exact h₁) h₂) h₃

end

/-- A turn is possible where the results of a node are searched at each of its positions. -/
theorem Backed.exists_turn (take : List Place → ScenarioMatch → List Candidate)
    (hs : Backed (fun m c => c ∈ m.candidates) ms s)
    (alike : ∀ m ∈ ms, ∀ m' ∈ ms, m.node = m'.node → m.candidates = m'.candidates) (hm : m ∈ ms)
    (now : ScenarioMatch) (same : now.bare = m.bare)
    (had : now.found = [] ∨ now.found = s.resultsOf m.node)
    (taken : ∀ c ∈ take s.claimed now, c ∈ now.candidates) :
    ∃ s', s.turn? take now = some s' ∧ Backed (fun m c => c ∈ m.candidates) ms s' := by
  have held : ∀ c ∈ now.found, ∃ m' ∈ ms, m'.node = m.node ∧ c ∈ m'.candidates := by
    intro c hc
    rcases had with hnone | hsame
    · rw [hnone] at hc
      cases hc
    · exact hs m.node c (hsame ▸ hc)
  have hcandidates : now.candidates = m.candidates := by
    change now.bare.candidates = m.bare.candidates
    rw [same]
  have hfound : (now.found.all fun c => now.candidates.any (·.place == c.place)) = true := by
    refine List.all_eq_true.mpr fun c hc => ?_
    obtain ⟨m', hm', hnode, hmem⟩ := held c hc
    refine List.any_eq_true.mpr ⟨c, ?_, beq_self_eq_true _⟩
    rwa [hcandidates, ← alike m' hm' m hm hnode]
  have hattach : now.attach? (take s.claimed now) = some (now.attach (take s.claimed now)) := by
    rw [ScenarioMatch.attach?, hfound, Bool.or_true, if_pos rfl]
  obtain ⟨s', hturn⟩ : ∃ s', s.turn? take now = some s' := by
    unfold turn?
    dsimp only
    rw [hattach]
    exact ⟨_, rfl⟩
  exact ⟨s', hturn, hs.turn hm now same held taken hturn⟩

theorem Backed.exists_proceed (take : List Place → ScenarioMatch → List Candidate)
    (hs : Backed (fun m c => c ∈ m.candidates) ms s)
    (alike : ∀ m ∈ ms, ∀ m' ∈ ms, m.node = m'.node → m.candidates = m'.candidates)
    (taken : ∀ claimed m, ∀ c ∈ take claimed m, c ∈ m.candidates) :
    ∃ s', s.proceed? take ms = some s' ∧ Backed (fun m c => c ∈ m.candidates) ms s' :=
  foldlM_exists (P := Backed (fun m c => c ∈ m.candidates) ms) hs fun m hm s hs =>
    hs.exists_turn take alike hm (s.withResults m) rfl (.inr rfl) (taken _ _)

/-- Where the scenarios of each node are searched alike, the runs come to an end. -/
theorem ofScenarios?_exists (settings : CorrelationSettings) (fresh : ∀ m ∈ ms, m.found = [])
    (alike : ∀ m ∈ ms, ∀ m' ∈ ms, m.node = m'.node → m.candidates = m'.candidates) :
    ∃ s, ofScenarios? settings ms = some s := by
  have start : Backed (fun m c => c ∈ m.candidates) ms {} := fun _ _ hc => nomatch hc
  obtain ⟨s₁, h₁, exact⟩ :=
    foldlM_exists (P := Backed (fun m c => c ∈ m.candidates) ms) start fun m hm s hs =>
      hs.exists_turn ScenarioMatch.takeExact alike hm m rfl (.inl (fresh m hm))
        fun c hc => (ScenarioMatch.mem_takeExact hc).1
  obtain ⟨s₂, h₂, base⟩ := exact.exists_proceed ScenarioMatch.takeBase alike
    fun _ _ _ hc => (ScenarioMatch.mem_takeBase hc).1
  obtain ⟨s₃, h₃, -⟩ := base.exists_proceed (ScenarioMatch.takeResembling settings) alike
    fun _ _ _ hc => (ScenarioMatch.mem_takeResembling hc).1
  refine ⟨s₃, Option.bind_eq_some_iff.mpr ⟨s₁, h₁, Option.bind_eq_some_iff.mpr ⟨s₂, h₂, h₃⟩⟩⟩

end Matching

namespace ScenarioMatch

variable {claimed : List Place} {p : Place}

/-- Whether the result at a place has the whole name of the scenario and is searched by it. -/
def wants (p : Place) (m : ScenarioMatch) : Bool :=
  m.candidates.any fun c => c.place == p && c.name == m.key

theorem takeExact_unwanted (claimed : List Place) {m : ScenarioMatch} (h : m.wants p = false) :
    ∀ c ∈ m.takeExact claimed, c.place ≠ p := by
  intro c hc he
  obtain ⟨hm, hn, -⟩ := mem_takeExact hc
  simp only [wants, List.any_eq_false] at h
  exact h c hm (by simp [he, hn])

theorem takeExact_wanted {m : ScenarioMatch} (h : m.wants p = true) (free : p ∉ claimed) :
    ∃ c ∈ m.takeExact claimed, c.place = p := by
  obtain ⟨c, hm, hc⟩ := List.any_eq_true.mp h
  simp only [Bool.and_eq_true, beq_iff_eq] at hc
  exact ⟨c, mem_free.mpr ⟨hm, by simp [hc.2], hc.1 ▸ free⟩, hc.1⟩

end ScenarioMatch

namespace Matching

variable {settings : CorrelationSettings} {ms before after : List ScenarioMatch} {m : ScenarioMatch}
  {s s' : Matching} {n : ScenarioNode} {p : Place}

/-- What is claimed stays with its node in the first run until the node has another turn. -/
theorem exactTurns_claimed {holder : ScenarioNode → Prop} (fresh : ∀ m ∈ after, m.found = [])
    (hp : p ∈ s.claimed) (hholds : ∀ n, s.Holds n p ↔ holder n)
    (h : after.foldlM (turn? ScenarioMatch.takeExact) s = some s') :
    p ∈ s'.claimed ∧ ∀ n, s'.Holds n p ↔ holder n ∧ ∀ later ∈ after, later.node ≠ n := by
  induction after generalizing s holder with
  | nil =>
    cases h
    exact ⟨hp, fun n => by simp [hholds n]⟩
  | cons m after ih =>
    rw [List.foldlM_cons] at h
    obtain ⟨next, hturn, hrest⟩ := Option.bind_eq_some_iff.mp h
    have hclaimed : p ∈ next.claimed := by
      rw [turn?_claimed hturn]
      exact List.mem_append_right _ hp
    have hnext : ∀ n, next.Holds n p ↔ holder n ∧ m.node ≠ n := by
      intro n
      rw [holds_turn_passed hturn (takesFree_exact.not_mem hp), fresh m List.mem_cons_self, hholds n]
      simp [and_comm, eq_comm]
    obtain ⟨hend, hiff⟩ := ih (fun other ho => fresh other (List.mem_cons_of_mem _ ho)) hclaimed
      hnext hrest
    refine ⟨hend, fun n => ?_⟩
    rw [hiff n, List.forall_mem_cons, and_assoc]

/-- The first run gives a result to the first scenario that wants it, whose node has it in the end
unless the node has another turn. -/
theorem start?_first (fresh : ∀ other ∈ before ++ m :: after, other.found = [])
    (unwanted : ∀ other ∈ before, other.wants p = false) (wanted : m.wants p = true)
    (h : start? (before ++ m :: after) = some s) :
    p ∈ s.claimed ∧ ∀ n, s.Holds n p ↔ m.node = n ∧ ∀ later ∈ after, later.node ≠ n := by
  rw [start?, List.foldlM_append, Option.bind_eq_bind, Option.bind_eq_some_iff] at h
  obtain ⟨s₁, h₁, h⟩ := h
  rw [List.foldlM_cons] at h
  obtain ⟨s₂, hturn, h₂⟩ := Option.bind_eq_some_iff.mp h
  -- Nobody before wants the result, so it is free when its first claimant has its turn.
  have hfree : p ∉ s₁.claimed ∧ ∀ n, ¬s₁.Holds n p := by
    refine foldlM_induction (P := fun s => p ∉ s.claimed ∧ ∀ n, ¬s.Holds n p) h₁
      ⟨List.not_mem_nil, fun n ⟨c, hc, _⟩ => nomatch hc⟩ ?_
    rintro other hother s s' ⟨hclaimed, hholds⟩ hturn
    have hnew := ScenarioMatch.takeExact_unwanted s.claimed (unwanted other hother)
    constructor
    · rw [turn?_claimed hturn, List.mem_append, List.mem_map]
      rintro (⟨c, hc, he⟩ | hold)
      · exact hnew c hc he
      · exact hclaimed hold
    · intro n
      rw [holds_turn_passed hturn hnew, fresh other (List.mem_append_left _ hother)]
      rintro (⟨-, c, hc, -⟩ | ⟨-, hold⟩)
      · cases hc
      · exact hholds n hold
  have hfresh : m.found = [] := fresh m (by simp)
  have htaken := ScenarioMatch.takeExact_wanted wanted hfree.1
  have hclaimed : p ∈ s₂.claimed := by
    obtain ⟨c, hc, rfl⟩ := htaken
    rw [turn?_claimed hturn]
    exact List.mem_append_left _ (List.mem_map_of_mem hc)
  refine exactTurns_claimed (fun other ho => fresh other (by simp [ho])) hclaimed (fun n => ?_) h₂
  rw [holds_turn hturn, eq_comm]
  simp only [htaken, or_true, and_true, hfree.2 n, and_false, or_false]

/-- The result that the first of the scenarios wants is claimed in the first run, and in the end the
node of this scenario has it, and no other, unless the node has another turn. -/
theorem ofScenarios?_first (fresh : ∀ other ∈ before ++ m :: after, other.found = [])
    (unwanted : ∀ other ∈ before, other.wants p = false) (wanted : m.wants p = true)
    (h : ofScenarios? settings (before ++ m :: after) = some s) (n : ScenarioNode) :
    s.Holds n p ↔ m.node = n ∧ ∀ later ∈ after, later.node ≠ n := by
  obtain ⟨s₁, h₁, h⟩ := Option.bind_eq_some_iff.mp h
  obtain ⟨s₂, h₂, h₃⟩ := Option.bind_eq_some_iff.mp h
  obtain ⟨hclaimed, hfirst⟩ := start?_first fresh unwanted wanted h₁
  obtain ⟨hclaimed, hbase⟩ := proceed?_keeps_claimed takesFree_base h₂ hclaimed
  obtain ⟨-, hlast⟩ := proceed?_keeps_claimed (takesFree_resembling settings) h₃ hclaimed
  rw [hlast n, hbase n, hfirst n]

/-- What some scenario wants is held after the first run by nodes of its name alone, and stays. -/
theorem wanted_stays (fresh : ∀ m ∈ ms, m.found = []) (wanted : ∃ m ∈ ms, m.wants p = true)
    {s₁ s₂ : Matching} (h₁ : start? ms = some s₁)
    (h₂ : s₁.proceed? ScenarioMatch.takeBase ms = some s₂)
    (h₃ : s₂.proceed? (ScenarioMatch.takeResembling settings) ms = some s) :
    p ∈ s₂.claimed ∧ (∀ n, s.Holds n p ↔ s₁.Holds n p) ∧ ∀ n, s.Holds n p ↔ s₂.Holds n p := by
  obtain ⟨first, hfind⟩ := Option.isSome_iff_exists.mp (List.find?_isSome.mpr wanted)
  obtain ⟨hw, before, after, rfl, hb⟩ := List.find?_eq_some_iff_append.mp hfind
  have hfirst := start?_first fresh (fun m hm => by simpa using hb m hm) hw h₁
  obtain ⟨hclaimed, hbase⟩ := proceed?_keeps_claimed takesFree_base h₂ hfirst.1
  obtain ⟨-, hlast⟩ := proceed?_keeps_claimed (takesFree_resembling settings) h₃ hclaimed
  exact ⟨hclaimed, fun n => (hlast n).trans (hbase n), hlast⟩

end Matching

theorem ScenarioMatch.takeResembling_of_found {settings : CorrelationSettings}
    {claimed : List Place} {m : ScenarioMatch} (h : m.found ≠ []) :
    m.takeResembling settings claimed = [] := by
  have hclosed : ¬(m.isPaired && m.found.isEmpty) = true := by simp [h]
  rw [takeResembling, if_neg hclosed]

namespace Matching

variable {settings : CorrelationSettings} {ms : List ScenarioMatch} {m : ScenarioMatch}
  {s s₁ s₂ : Matching}

/-- After the first run nothing with the name of a scenario that it searches is free. -/
theorem start?_claims {c : Candidate} (h : start? ms = some s) (hm : m ∈ ms) (hc : c ∈ m.candidates)
    (hname : c.name = m.key) : c.place ∈ s.claimed := by
  obtain ⟨before, after, rfl⟩ := List.append_of_mem hm
  rw [start?, List.foldlM_append, Option.bind_eq_bind, Option.bind_eq_some_iff] at h
  obtain ⟨s₁, -, h⟩ := h
  rw [List.foldlM_cons] at h
  obtain ⟨s₂, hturn, hrest⟩ := Option.bind_eq_some_iff.mp h
  have hclaimed : c.place ∈ s₂.claimed := by
    rw [turn?_claimed hturn, List.mem_append]
    by_cases hfree : c.place ∈ s₁.claimed
    · exact .inr hfree
    · refine .inl (List.mem_map_of_mem (ScenarioMatch.mem_free.mpr ⟨hc, ?_, hfree⟩))
      simpa using hname
  refine foldlM_induction (P := fun s => c.place ∈ s.claimed) hrest hclaimed ?_
  intro m _ s s' hs hturn
  rw [turn?_claimed hturn]
  exact List.mem_append_right _ hs

/-- The last run leaves a node what it has, or gives it what a scenario of the node takes of the
results that nobody has by then. -/
theorem lastRun_results (h : s₂.proceed? (ScenarioMatch.takeResembling settings) ms = some s)
    (n : ScenarioNode) :
    s.resultsOf n = s₂.resultsOf n ∨ s₂.resultsOf n = [] ∧ ∃ m ∈ ms, m.node = n ∧
      ∃ taken, s₂.claimed ⊆ taken ∧
        ∀ c ∈ s.resultsOf n, c ∈ (s₂.withResults m).takeResembling settings taken := by
  have hend : s₂.claimed ⊆ s.claimed ∧ (s.resultsOf n = s₂.resultsOf n ∨ s₂.resultsOf n = [] ∧
      ∃ m ∈ ms, m.node = n ∧ ∃ taken, s₂.claimed ⊆ taken ∧
        ∀ c ∈ s.resultsOf n, c ∈ (s₂.withResults m).takeResembling settings taken) := by
    refine foldlM_induction (P := fun s => s₂.claimed ⊆ s.claimed ∧
      (s.resultsOf n = s₂.resultsOf n ∨ s₂.resultsOf n = [] ∧ ∃ m ∈ ms, m.node = n ∧
        ∃ taken, s₂.claimed ⊆ taken ∧
          ∀ c ∈ s.resultsOf n, c ∈ (s₂.withResults m).takeResembling settings taken)) h
      ⟨List.Subset.refl _, .inl rfl⟩ ?_
    rintro m hm s s' ⟨hsub, hs⟩ hturn
    refine ⟨?_, ?_⟩
    · rw [turn?_claimed hturn]
      exact List.Subset.trans hsub (List.subset_append_right _ _)
    rw [turn?_resultsOf hturn]
    split
    next hn =>
      change n = m.node at hn
      by_cases hnone : s.resultsOf n = []
      · -- Nothing was given to the node before, neither in this run nor earlier.
        have hold : s₂.resultsOf n = [] := by
          rcases hs with hsame | ⟨hold, -⟩
          · exact hsame ▸ hnone
          · exact hold
        refine .inr ⟨hold, m, hm, hn.symm, s.claimed, hsub, fun c hc => ?_⟩
        have hrecall : s.withResults m = s₂.withResults m := by
          rw [withResults, withResults, ← hn, hnone, hold]
        rw [hrecall] at hc
        rcases ScenarioMatch.mem_attach.mp hc with hheld | hnew
        · change c ∈ s₂.resultsOf m.node at hheld
          rw [← hn, hold] at hheld
          cases hheld
        · exact hnew
      · have hfull : (s.withResults m).found ≠ [] := by
          change s.resultsOf m.node ≠ []
          rwa [← hn]
        rw [ScenarioMatch.takeResembling_of_found hfull]
        change s.resultsOf m.node = _ ∨ s₂.resultsOf n = [] ∧ ∃ m' ∈ ms, m'.node = n ∧
          ∃ taken, s₂.claimed ⊆ taken ∧ ∀ c ∈ s.resultsOf m.node, _
        rwa [← hn]
    next => exact hs
  exact hend.2

/-- Before the last run every result of a node has its name. -/
theorem namedRuns_found (fresh : ∀ m ∈ ms, m.found = []) (h₁ : start? ms = some s₁)
    (h₂ : s₁.proceed? ScenarioMatch.takeBase ms = some s₂) :
    Backed (fun m c => c ∈ m.candidates ∧ (c.name = m.key ∨ c.base = m.key)) ms s₂ := by
  refine proceed?_backed (fun claimed m c hc => ?_) (start?_backed fresh (fun claimed m c hc => ?_) h₁)
    h₂
  · obtain ⟨hm, hbase, -⟩ := ScenarioMatch.mem_takeBase hc
    exact ⟨hm, .inr hbase⟩
  · obtain ⟨hm, hname, -⟩ := ScenarioMatch.mem_takeExact hc
    exact ⟨hm, .inl hname⟩

end Matching

end SpecVerdict
