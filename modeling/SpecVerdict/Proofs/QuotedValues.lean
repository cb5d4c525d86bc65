import SpecVerdict.Proofs.NameArguments

namespace SpecVerdict

namespace Text

/-- A value between double quotation marks. -/
def quoted (value : Text) : Text := '"' :: (value ++ ['"'])

/-- Quoted values with a comma and a space between them. -/
def quotedList (values : List Text) : Text := join [',', ' '] (values.map quoted)

variable {value : Text} {values : List Text}

theorem argumentsFrom_inside {part t : Text} (h : '"' ∉ value) :
    argumentsFrom { quotation := some '"' } part (value ++ t) =
      argumentsFrom { quotation := some '"' } (value.reverse ++ part) t := by
  induction value generalizing part with
  | nil => rfl
  | cons c value ih =>
    obtain ⟨hc, hvalue⟩ := not_or.mp (mt List.mem_cons.mpr h)
    have hnext : ArgumentState.next { quotation := some '"' } c =
        ({ quotation := some '"' }, false) := by
      simp [ArgumentState.next, Ne.symm hc]
    rw [List.cons_append, argumentsFrom, hnext]
    dsimp only
    rw [ih hvalue, List.reverse_cons, List.append_assoc, List.singleton_append]

/-- Nothing between quotation marks ends an argument. -/
theorem argumentsFrom_quoted (part t : Text) (h : '"' ∉ value) :
    argumentsFrom {} part (quoted value ++ t) =
      argumentsFrom {} ((quoted value).reverse ++ part) t := by
  have hopen : argumentsFrom {} part (quoted value ++ t) =
      argumentsFrom { quotation := some '"' } ('"' :: part) (value ++ '"' :: t) := by
    rw [quoted, List.cons_append, List.append_assoc]
    rfl
  have hclose : argumentsFrom { quotation := some '"' } (value.reverse ++ '"' :: part) ('"' :: t) =
      argumentsFrom {} ('"' :: (value.reverse ++ '"' :: part)) t := rfl
  have hread : (quoted value).reverse ++ part = '"' :: (value.reverse ++ '"' :: part) := by
    simp [quoted]
  rw [hopen, argumentsFrom_inside h, hclose, hread]

theorem trim_quoted (value : Text) : trim (quoted value) = quoted value := by
  apply trim_eq_self
  · rintro c ⟨⟩
    decide
  · intro c hc
    rw [quoted, ← List.cons_append, List.getLast?_concat] at hc
    cases hc
    decide

theorem argumentsFrom_quotedList {blanks : Text} (hblanks : ∀ c ∈ blanks, isBlank c = true)
    (hne : values ≠ []) (h : ∀ value ∈ values, '"' ∉ value) :
    argumentsFrom {} blanks (quotedList values) = values.map quoted := by
  induction values generalizing blanks with
  | nil => exact absurd rfl hne
  | cons value values ih =>
    obtain ⟨hvalue, hvalues⟩ := List.forall_mem_cons.mp h
    have hread : trim ((quoted value).reverse ++ blanks).reverse = quoted value := by
      rw [List.reverse_append, List.reverse_reverse,
        trim_append_left fun c hc => hblanks c (List.mem_reverse.mp hc), trim_quoted]
    cases values with
    | nil =>
      rw [quotedList, List.map_singleton, join_singleton, ← List.append_nil (quoted value),
        argumentsFrom_quoted _ _ hvalue, argumentsFrom, hread, List.append_nil]
    | cons next values =>
      -- The space behind the comma is left to the next argument.
      have hcomma : ∀ part t, argumentsFrom {} part ([',', ' '] ++ t) =
          trim part.reverse :: argumentsFrom {} [' '] t := fun _ _ => rfl
      rw [quotedList, List.map_cons, List.map_cons, join_cons_cons, argumentsFrom_quoted _ _ hvalue,
        hcomma, hread, ← List.map_cons, ← quotedList,
        ih (List.forall_mem_singleton.mpr rfl) (List.cons_ne_nil next values) hvalues]

theorem arguments_quotedList (h : ∀ value ∈ values, '"' ∉ value) :
    arguments (quotedList values) = values.map quoted := by
  cases values with
  | nil => rfl
  | cons value values =>
    have hfull : (quotedList (value :: values)).isEmpty = false := by
      cases values <;> rfl
    rw [arguments, hfull, if_neg Bool.false_ne_true]
    exact argumentsFrom_quotedList (List.forall_mem_nil _) (List.cons_ne_nil value values) h

theorem unquote_quoted (value : Text) : unquote (quoted value) = value := by
  unfold unquote
  rw [trim_quoted, quoted]
  cases value with
  | nil => rfl
  | cons c value =>
    have hlast : (c :: value ++ ['"']).getLast? = some '"' := List.getLast?_concat
    have hfront : (c :: value ++ ['"']).dropLast = c :: value := List.dropLast_concat
    rw [List.cons_append] at hlast hfront
    simp [hlast, hfront]

/-- Only the parentheses of a text tell whether it is balanced. -/
theorem isBalanced_filter {p : Char → Bool} (hopen : p '(' = true) (hclose : p ')' = true)
    {t : Text} : IsBalanced (t.filter p) ↔ IsBalanced t := by
  unfold IsBalanced
  rw [List.count_filter hopen, List.count_filter hclose]
  refine and_congr_right fun _ => ⟨fun h s hs => ?_, fun h s hs => ?_⟩
  · have hfiltered := h _ (hs.filter p)
    rwa [List.count_filter hopen, List.count_filter hclose] at hfiltered
  · obtain ⟨whole, hwhole, rfl⟩ := List.prefix_filter_iff.mp hs
    rw [List.count_filter hopen, List.count_filter hclose]
    exact h whole hwhole

theorem isBalanced_quotedList : IsBalanced (quotedList values) ↔ IsBalanced values.flatten := by
  let p : Char → Bool := fun c => c == '(' || c == ')'
  have hquoted : ∀ value, (quoted value).filter p = value.filter p := by
    intro value
    simp [quoted, p]
  have hsame : (quotedList values).filter p = values.flatten.filter p := by
    induction values with
    | nil => rfl
    | cons value values ih =>
      cases values with
      | nil => simp [quotedList, join_singleton, hquoted]
      | cons next values =>
        rw [quotedList, List.map_cons, List.map_cons, join_cons_cons, ← List.map_cons, ← quotedList,
          List.filter_append, List.filter_append, ih, hquoted]
        simp only [List.flatten_cons, List.filter_append]
        rfl
  rw [← isBalanced_filter (p := p) rfl rfl, hsame, isBalanced_filter rfl rfl]

end Text

namespace NameParts

theorem not_ignored_of_quoted (value : Text) :
    String.ofList (Text.lower (Text.quoted value)) ∉ ignoredValues := by
  have hfirst : ∀ ignored ∈ ignoredValues, ignored.toList.head? ≠ some '"' := by decide
  have hhead : (Text.lower (Text.quoted value)).head? = some '"' := by
    simp [Text.quoted, Text.lower, Text.lowerFrom, lowerChar]
  intro hm
  have hother := hfirst _ hm
  rw [String.toList_ofList] at hother
  exact hother hhead

theorem addArgument_quoted (parts : NameParts) (value : Text) :
    addArgument parts (Text.quoted value) =
      { parts with positional := parts.positional ++ [String.ofList value] } := by
  have hnamed : Text.namedArgument? (Text.quoted value) = none := rfl
  have hfull : (Text.quoted value).isEmpty = false := rfl
  simp [addArgument, hnamed, hfull, not_ignored_of_quoted, Text.unquote_quoted]

theorem withArguments_quotedList (base : Text) {values : List Text}
    (h : ∀ value ∈ values, '"' ∉ value) :
    withArguments base (Text.quotedList values) =
      { base := String.ofList base, positional := values.map String.ofList } := by
  have hfold : ∀ (values : List Text) (parts : NameParts),
      (values.map Text.quoted).foldl addArgument parts =
        { parts with positional := parts.positional ++ values.map String.ofList } := by
    intro values
    induction values with
    | nil => simp
    | cons value values ih => simp [addArgument_quoted, ih]
  rw [withArguments, Text.arguments_quotedList h, hfold, List.nil_append]

variable {base args : Text}

/-- A trimmed base is found again exactly if the arguments behind it are balanced. -/
theorem ofText_base_iff (htrim : Text.trim base = base) (hne : base ≠ []) :
    (ofText (base ++ '(' :: (args ++ [')']))).base = String.ofList base ↔
      Text.IsBalanced args := by
  have hhead : ∀ c ∈ base.head?, isBlank c = false := by
    rw [← htrim]
    exact Text.head_trim base
  have hwhole : Text.trim (base ++ '(' :: (args ++ [')'])) = base ++ '(' :: (args ++ [')']) :=
    trim_arguments hhead
  constructor
  · intro h
    rcases ofText_cases (base ++ '(' :: (args ++ [')'])) with
      ⟨front, inside, hparts, -, hbalanced, hread⟩ | hread
    · rw [hread, withArguments_base, String.ofList_inj] at h
      rw [hwhole] at hparts
      have hsame : front = base := by
        rcases List.append_eq_append_iff.mp hparts with ⟨more, rfl, hmore⟩ | ⟨more, hbase, -⟩
        · -- The opening parenthesis would be part of the base.
          cases more with
          | nil => exact List.append_nil base
          | cons c more =>
            obtain ⟨rfl, -⟩ := List.cons.inj hmore
            have hblank := (Text.trim_append_eq_trim_iff (by rwa [htrim])).mp (h.trans htrim.symm)
            exact absurd (hblank '(' List.mem_cons_self) (by decide)
        · obtain ⟨before, after, hfront, -, -⟩ := Text.exists_trim front
          rw [h] at hfront
          have hlength := congrArg List.length hfront
          have hlonger := congrArg List.length hbase
          simp only [List.length_append] at hlength hlonger
          have hnil : more = [] := List.length_eq_zero_iff.mp (by omega)
          rw [hbase, hnil, List.append_nil]
      rw [hsame] at hparts
      obtain ⟨-, hinside⟩ := List.cons.inj (List.append_cancel_left hparts)
      rwa [List.append_cancel_right hinside]
    · rw [hread, hwhole] at h
      have hlength := congrArg List.length (String.ofList_inj.mp h)
      simp at hlength
  · intro hbalanced
    rw [ofText_parts (by rwa [htrim]) hbalanced (List.forall_mem_nil _), withArguments_base, htrim]

end NameParts

/-- A base with quoted values in parentheses behind it. -/
def quotedName (base : String) (values : List String) : String :=
  String.ofList (base.toList ++ '(' :: (Text.quotedList (values.map String.toList) ++ [')']))

/-- A base and the quoted values behind it, none of which holds a quotation mark, are given back
exactly if the parentheses in the values, taken together, are balanced. -/
theorem splitName_quotedName {base : String} {values : List String} (hne : base ≠ "")
    (htrim : onText Text.trim base = base) (hquote : ∀ value ∈ values, '"' ∉ value.toList) :
    splitName (quotedName base values) = { base, positional := values } ↔
      Text.IsBalanced (values.flatMap String.toList) := by
  have hnil : base.toList ≠ [] := by simpa using hne
  have htrim' : Text.trim base.toList = base.toList := by
    simpa [onText] using congrArg String.toList htrim
  have hquote' : ∀ value ∈ values.map String.toList, '"' ∉ value := by simpa using hquote
  rw [splitName, quotedName, String.toList_ofList, List.flatMap_def, ← Text.isBalanced_quotedList]
  constructor
  · intro h
    rw [← NameParts.ofText_base_iff htrim' hnil, h, String.ofList_toList]
  · intro hbalanced
    rw [NameParts.ofText_parts (by rwa [htrim']) hbalanced (List.forall_mem_nil _), htrim',
      NameParts.withArguments_quotedList _ hquote']
    simp

/-- A comma, a bracket that stays open, a colon, parentheses in pairs and no character at all. -/
theorem move_values_given_back :
    "Move to" ≠ "" ∧ onText Text.trim "Move to" = "Move to" ∧
      (∀ value ∈ ["f(x, (y))", "[", "a: b", ""], '"' ∉ value.toList) ∧
      splitName "Move to(\"f(x, (y))\", \"[\", \"a: b\", \"\")" =
        { base := "Move to", positional := ["f(x, (y))", "[", "a: b", ""] } := by
  have hbalanced : Text.IsBalanced (["f(x, (y))", "[", "a: b", ""].flatMap String.toList) := by
    decide
  have hname : quotedName "Move to" ["f(x, (y))", "[", "a: b", ""] =
      "Move to(\"f(x, (y))\", \"[\", \"a: b\", \"\")" := by decide
  refine ⟨by decide, by decide, by decide, ?_⟩
  rw [← hname]
  exact (splitName_quotedName (by decide) (by decide) (by decide)).mpr hbalanced

/-- A value with a parenthesis that closes none is lost, and the base with it. -/
theorem lone_parenthesis_loses_value :
    ¬∀ (base : String) (values : List String), base ≠ "" → onText Text.trim base = base →
      (∀ value ∈ values, '"' ∉ value.toList) →
        splitName (quotedName base values) = { base, positional := values } := by
  intro claim
  have hsplit := claim "Pay" ["a)"] (by decide) (by decide) (by decide)
  revert hsplit
  decide

end SpecVerdict
