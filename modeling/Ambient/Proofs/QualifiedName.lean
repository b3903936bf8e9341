import Ambient.QualifiedName

/-!
# Well-formed qualified names

A name that is a join of segments is taken apart into these very segments.  So its namespaces and
its short name, which are computed independently of each other, are the two parts of one list
(`WellFormed.segments_eq`), and together they determine the name (`WellFormed.eq_of_place`).
-/

namespace Ambient.QualifiedName

/-- A text that can stand between separators: it is not empty and has no colon. -/
def IsSegment (text : String) : Prop :=
  text ≠ "" ∧ ':' ∉ text.toList

instance (text : String) : Decidable (IsSegment text) :=
  inferInstanceAs (Decidable (_ ∧ _))

/-- A join of one or more segments. -/
def WellFormed (name : String) : Prop :=
  ∃ parts, parts ≠ [] ∧ (∀ part ∈ parts, IsSegment part) ∧ name = separator.intercalate parts

/-! ## Texts without a colon -/

-- Both readers look two characters ahead, so every induction below has to rule out that the first
-- character starts a separator.

theorem splitAtSeparators_of_not_mem {text : List Char} (h : ':' ∉ text) :
    splitAtSeparators text = (text, []) := by
  induction text with
  | nil => rfl
  | cons c rest ih =>
    have hFirst := List.ne_of_not_mem_cons h
    have hRest := List.not_mem_of_not_mem_cons h
    rw [splitAtSeparators, ih hRest]
    rintro rest' rfl -
    exact hFirst rfl

theorem splitAtSeparators_append {text : List Char} (h : ':' ∉ text) (rest : List Char) :
    splitAtSeparators (text ++ ':' :: ':' :: rest) =
      (text, (splitAtSeparators rest).1 :: (splitAtSeparators rest).2) := by
  induction text with
  | nil => rfl
  | cons c others ih =>
    have hFirst := List.ne_of_not_mem_cons h
    have hRest := List.not_mem_of_not_mem_cons h
    rw [List.cons_append, splitAtSeparators, ih hRest]
    rintro rest' rfl -
    exact hFirst rfl

theorem upToSeparator_of_not_mem {text : List Char} (h : ':' ∉ text) :
    upToSeparator text = text := by
  induction text with
  | nil => rfl
  | cons c rest ih =>
    have hFirst := List.ne_of_not_mem_cons h
    have hRest := List.not_mem_of_not_mem_cons h
    rw [upToSeparator, ih hRest]
    rintro rest' rfl -
    exact hFirst rfl

theorem upToSeparator_append {text : List Char} (h : ':' ∉ text) (rest : List Char) :
    upToSeparator (text ++ ':' :: ':' :: rest) = text := by
  induction text with
  | nil => rfl
  | cons c others ih =>
    have hFirst := List.ne_of_not_mem_cons h
    have hRest := List.not_mem_of_not_mem_cons h
    rw [List.cons_append, upToSeparator, ih hRest]
    rintro rest' rfl -
    exact hFirst rfl

/-! ## Joins of segments -/

theorem IsSegment.toList_isEmpty {text : String} (h : IsSegment text) :
    text.toList.isEmpty = false := by
  rw [List.isEmpty_eq_false_iff]
  exact fun hNil => h.1 (String.toList_eq_nil_iff.mp hNil)

/-- A join has the characters of its parts, and colons. -/
theorem mem_intercalate {parts : List String} {c : Char}
    (h : c ∈ (separator.intercalate parts).toList) : c = ':' ∨ ∃ part ∈ parts, c ∈ part.toList := by
  induction parts with
  | nil => cases h
  | cons first rest ih =>
    cases rest with
    | nil =>
      rw [String.intercalate_singleton] at h
      exact .inr ⟨first, .head _, h⟩
    | cons second others =>
      rw [String.intercalate_cons_cons, String.toList_append, String.toList_append,
        List.mem_append, List.mem_append] at h
      rcases h with (hFirst | hSeparator) | hRest
      · exact .inr ⟨first, .head _, hFirst⟩
      · -- only the separator is left
        have hColons : separator.toList = [':', ':'] := rfl
        rw [hColons] at hSeparator
        exact .inl (by simpa using hSeparator)
      · exact (ih hRest).imp_right fun ⟨part, hPart, hc⟩ => ⟨part, .tail _ hPart, hc⟩

theorem mem_intercalate_of_mem {parts : List String} {part : String} {c : Char}
    (hPart : part ∈ parts) (hc : c ∈ part.toList) :
    c ∈ (separator.intercalate parts).toList := by
  induction parts with
  | nil => cases hPart
  | cons first rest ih =>
    cases rest with
    | nil =>
      obtain rfl := List.mem_singleton.mp hPart
      rwa [String.intercalate_singleton]
    | cons second others =>
      rw [String.intercalate_cons_cons, String.toList_append, String.toList_append, List.mem_append,
        List.mem_append]
      rcases List.mem_cons.mp hPart with rfl | hRest
      · exact .inl (.inl hc)
      · exact .inr (ih hRest)

theorem colon_mem_intercalate {parts : List String} (h : 2 ≤ parts.length) :
    ':' ∈ (separator.intercalate parts).toList := by
  match parts, h with
  | first :: second :: others, _ =>
    rw [String.intercalate_cons_cons, String.toList_append, String.toList_append]
    exact List.mem_append_left _ (List.mem_append_right _ (List.mem_cons_self ..))

theorem ofSegments_eq {parts : List String} (h : ∀ part ∈ parts, part ≠ "") :
    ofSegments parts = separator.intercalate parts := by
  have hFilter : parts.filter (!·.isEmpty) = parts :=
    List.filter_eq_self.mpr fun part hPart => by simpa using h part hPart
  rw [ofSegments, hFilter]

/-- What a text is taken apart into, the empty parts included. -/
def parts (text : List Char) : List (List Char) :=
  (splitAtSeparators text).1 :: (splitAtSeparators text).2

theorem segments_eq_parts (name : String) :
    segments name = ((parts name.toList).filter (!·.isEmpty)).map String.ofList :=
  rfl

theorem parts_separator (rest : List Char) : parts (':' :: ':' :: rest) = [] :: parts rest :=
  rfl

theorem toList_intercalate_cons (first second : String) (rest : List String) :
    (separator.intercalate (first :: second :: rest)).toList =
      first.toList ++ ':' :: ':' :: (separator.intercalate (second :: rest)).toList := by
  rw [String.intercalate_cons_cons, String.toList_append, String.toList_append, List.append_assoc]
  rfl

/-- A join of segments is taken apart into these segments. -/
theorem parts_intercalate {first : String} {rest : List String}
    (h : ∀ part ∈ first :: rest, IsSegment part) :
    parts (separator.intercalate (first :: rest)).toList = (first :: rest).map String.toList := by
  induction rest generalizing first with
  | nil =>
    rw [String.intercalate_singleton, parts, splitAtSeparators_of_not_mem (h first (.head _)).2]
    rfl
  | cons second others ih =>
    -- the text up to the first separator is the first part, and the rest is a shorter join
    obtain ⟨hFirst, hRest⟩ := List.forall_mem_cons.mp h
    rw [toList_intercalate_cons, parts, splitAtSeparators_append hFirst.2, List.map_cons,
      ← ih hRest]
    rfl

theorem filter_toList {segments : List String} (h : ∀ segment ∈ segments, IsSegment segment) :
    (segments.map String.toList).filter (!·.isEmpty) = segments.map String.toList := by
  refine List.filter_eq_self.mpr (List.forall_mem_map.mpr fun segment hSegment => ?_)
  rw [(h segment hSegment).toList_isEmpty]
  rfl

/-- The segments of a join are its parts. -/
theorem segments_intercalate {segments : List String}
    (h : ∀ segment ∈ segments, IsSegment segment) :
    QualifiedName.segments (separator.intercalate segments) = segments := by
  cases segments with
  | nil => rfl
  | cons first rest =>
    rw [segments_eq_parts, parts_intercalate h, filter_toList h, List.map_map]
    simp

/-- The short name of a join is its last part. -/
theorem short_intercalate {parts : List String} {last : String} (hLast : IsSegment last) :
    short (separator.intercalate (parts ++ [last])) = last := by
  have hReverse : ':' ∉ last.toList.reverse := by simpa using hLast.2
  unfold short
  -- read backwards the last part comes first, and a separator after it if there are other parts
  by_cases hParts : parts = []
  · rw [hParts, List.nil_append, String.intercalate_singleton, upToSeparator_of_not_mem hReverse,
      List.reverse_reverse, String.ofList_toList]
  · have hText : (separator.intercalate (parts ++ [last])).toList.reverse =
        last.toList.reverse ++ ':' :: ':' :: (separator.intercalate parts).toList.reverse := by
      rw [String.intercalate_append_of_ne_nil hParts (List.cons_ne_nil _ _),
        String.intercalate_singleton, String.toList_append, String.toList_append]
      simp [separator]
    rw [hText, upToSeparator_append hReverse, List.reverse_reverse, String.ofList_toList]

/-- A name tells its last segment from the rest. -/
theorem ofSegments_concat_injective {parts parts' : List String} {last last' : String}
    (h : IsSegment last) (h' : IsSegment last')
    (hEq : ofSegments (parts ++ [last]) = ofSegments (parts' ++ [last'])) :
    ofSegments parts = ofSegments parts' ∧ last = last' := by
  have hConcat (parts : List String) {last : String} (h : IsSegment last) :
      ofSegments (parts ++ [last]) =
        separator.intercalate (parts.filter (!·.isEmpty) ++ [last]) := by
    rw [ofSegments, List.filter_append]
    simp [h.1]
  rw [hConcat parts h, hConcat parts' h'] at hEq
  have hLast := congrArg short hEq
  rw [short_intercalate h, short_intercalate h'] at hLast
  subst hLast
  refine ⟨?_, rfl⟩
  -- what comes before the last segment is nothing, or it ends in a separator
  have hBefore (parts : List String) : ∃ lead : String,
      separator.intercalate (parts ++ [last]) = lead ++ last ∧
        (lead = "" ∧ separator.intercalate parts = "" ∨
          lead = separator.intercalate parts ++ separator) := by
    by_cases hSome : parts = []
    · exact ⟨"", by rw [hSome]; simp, .inl ⟨rfl, by rw [hSome]; rfl⟩⟩
    · refine ⟨_, ?_, .inr rfl⟩
      rw [String.intercalate_append_of_ne_nil hSome (List.cons_ne_nil _ _),
        String.intercalate_singleton]
  obtain ⟨lead, hText, hLead⟩ := hBefore (parts.filter (!·.isEmpty))
  obtain ⟨lead', hText', hLead'⟩ := hBefore (parts'.filter (!·.isEmpty))
  rw [hText, hText', String.append_left_inj] at hEq
  subst hEq
  have hSeparator (text : String) : text ++ separator ≠ "" := by simp [separator]
  rcases hLead with ⟨hNone, hEmpty⟩ | hLead
  · rcases hLead' with ⟨-, hEmpty'⟩ | hLead'
    · exact hEmpty.trans hEmpty'.symm
    · exact absurd (hLead'.symm.trans hNone) (hSeparator _)
  · rcases hLead' with ⟨hNone, -⟩ | hLead'
    · exact absurd (hLead.symm.trans hNone) (hSeparator _)
    · exact (String.append_left_inj separator).mp (hLead.symm.trans hLead')

/-! ## Well-formed names -/

namespace WellFormed

variable {name : String}

theorem isSegment (h : WellFormed name) : ∀ part ∈ segments name, IsSegment part := by
  obtain ⟨parts, -, hParts, rfl⟩ := h
  rw [segments_intercalate hParts]
  exact hParts

theorem intercalate_segments (h : WellFormed name) :
    separator.intercalate (segments name) = name := by
  obtain ⟨parts, -, hParts, rfl⟩ := h
  rw [segments_intercalate hParts]

/-- The short name is what the namespaces leave of the segments. -/
theorem segments_eq (h : WellFormed name) : segments name = namespaces name ++ [short name] := by
  obtain ⟨parts, hSome, hParts, rfl⟩ := h
  rw [namespaces, segments_intercalate hParts]
  obtain ⟨init, last, rfl⟩ : ∃ init last, parts = init ++ [last] :=
    ⟨_, _, (List.dropLast_concat_getLast hSome).symm⟩
  rw [short_intercalate (hParts last (by simp)), List.dropLast_concat]

/-- Two names with the same namespaces and the same short name are the same. -/
theorem eq_of_place (h : WellFormed name) {name' : String} (h' : WellFormed name')
    (hNamespaces : namespaces name = namespaces name') (hShort : short name = short name') :
    name = name' := by
  rw [← h.intercalate_segments, ← h'.intercalate_segments, h.segments_eq, h'.segments_eq,
    hNamespaces, hShort]

end WellFormed

theorem wellFormed_iff {name : String} : WellFormed name ↔
    segments name ≠ [] ∧ (∀ part ∈ segments name, IsSegment part) ∧
      separator.intercalate (segments name) = name := by
  refine ⟨fun h => ⟨?_, h.isSegment, h.intercalate_segments⟩, fun ⟨hSome, hParts, hName⟩ =>
    ⟨segments name, hSome, hParts, hName.symm⟩⟩
  rw [h.segments_eq]
  exact List.append_ne_nil_of_right_ne_nil _ (List.cons_ne_nil _ _)

instance (name : String) : Decidable (WellFormed name) :=
  decidable_of_iff _ wellFormed_iff.symm

/-! ## Names behind any text -/

/-- A character that starts no separator belongs to the first part. -/
theorem parts_cons {c : Char} {rest : List Char} (h : ∀ more, c = ':' → rest ≠ ':' :: more) :
    parts (c :: rest) = (c :: (splitAtSeparators rest).1) :: (splitAtSeparators rest).2 := by
  rw [parts, splitAtSeparators]
  exact fun more hc hRest => h more hc hRest

theorem subset_of_mem_parts (text : List Char) : ∀ part ∈ parts text, part ⊆ text := by
  induction text using splitAtSeparators.induct with
  | case1 => exact List.forall_mem_singleton.mpr (List.Subset.refl _)
  | case2 rest first more hRest ih =>
    rw [parts_separator]
    refine List.forall_mem_cons.mpr ⟨List.nil_subset _, fun part hPart => ?_⟩
    exact List.subset_cons_of_subset _ (List.subset_cons_of_subset _ (ih part hPart))
  | case3 c rest hOther first more hRest ih =>
    rw [parts_cons hOther]
    obtain ⟨hFirst, hMore⟩ := List.forall_mem_cons.mp ih
    refine List.forall_mem_cons.mpr ⟨List.cons_subset_cons _ hFirst, fun part hPart => ?_⟩
    exact List.subset_cons_of_subset _ (hMore part hPart)

/-- A separator and a text that does not go on with a colon end a text in one way, whatever that
text is: a stray colon before the separator goes over to the part behind it. -/
theorem exists_parts_append (text : List Char) : ∃ lead last, ∀ after first more,
    after.head? ≠ some ':' → parts after = first :: more →
      parts (text ++ ':' :: ':' :: after) = lead ++ (last ++ first) :: more := by
  induction text using splitAtSeparators.induct with
  | case1 =>
    refine ⟨[[]], [], fun after first more _ hParts => ?_⟩
    rw [List.nil_append, parts_separator, hParts]
    rfl
  | case2 rest first more hRest ih =>
    obtain ⟨lead, last, hAppend⟩ := ih
    refine ⟨[] :: lead, last, fun after first more hAfter hParts => ?_⟩
    rw [List.cons_append, List.cons_append, parts_separator, hAppend after first more hAfter hParts]
    rfl
  | case3 c rest hOther first more hRest ih =>
    -- a last colon before the separator pairs up with the first colon of the separator
    by_cases hStray : c = ':' ∧ rest = []
    · obtain ⟨rfl, rfl⟩ := hStray
      refine ⟨[[]], [':'], fun after first more hAfter hParts => ?_⟩
      obtain ⟨rfl, rfl⟩ := List.cons.inj hParts
      rw [List.cons_append, List.nil_append, parts_separator, parts_cons]
      · rfl
      · rintro more - rfl
        exact hAfter rfl
    · obtain ⟨lead, last, hAppend⟩ := ih
      have hCons (after : List Char) : parts (c :: rest ++ ':' :: ':' :: after) =
          (c :: (splitAtSeparators (rest ++ ':' :: ':' :: after)).1) ::
            (splitAtSeparators (rest ++ ':' :: ':' :: after)).2 := by
        refine parts_cons fun more hc hMore => ?_
        cases rest with
        | nil => exact hStray ⟨hc, rfl⟩
        | cons d others => exact hOther others hc (by rw [(List.cons.inj hMore).1])
      cases lead with
      | nil =>
        refine ⟨[], c :: last, fun after first more hAfter hParts => ?_⟩
        obtain ⟨hFirst, hMore⟩ := List.cons.inj (hAppend after first more hAfter hParts)
        rw [hCons, hFirst, hMore]
        rfl
      | cons head others =>
        refine ⟨(c :: head) :: others, last, fun after first more hAfter hParts => ?_⟩
        obtain ⟨hFirst, hMore⟩ := List.cons.inj (hAppend after first more hAfter hParts)
        rw [hCons, hFirst, hMore]
        rfl

theorem filter_flatten_parts (text : List Char) :
    (parts text).flatten.filter (· != ':') = text.filter (· != ':') := by
  induction text using splitAtSeparators.induct with
  | case1 => rfl
  | case2 rest first more hRest ih =>
    rw [parts_separator]
    exact ih
  | case3 c rest hOther first more hRest ih =>
    rw [parts_cons hOther, List.flatten_cons, List.cons_append,
      ← List.flatten_cons, List.filter_cons, List.filter_cons, ← parts, ih]

/-- Of a join, characters that its separator has none of stand in the parts. -/
theorem filter_toList_intercalate {kind : Char → Bool} {separator : String}
    (h : ∀ c ∈ separator.toList, kind c = false) (texts : List String) :
    (separator.intercalate texts).toList.filter kind =
      (texts.flatMap String.toList).filter kind := by
  have hSeparator : separator.toList.filter kind = [] :=
    List.filter_eq_nil_iff.mpr fun c hc => by simp [h c hc]
  induction texts with
  | nil => rfl
  | cons first rest ih =>
    cases rest with
    | nil => simp
    | cons second others =>
      rw [String.intercalate_cons_cons, String.toList_append, String.toList_append,
        List.filter_append, List.filter_append, hSeparator, ih, List.append_nil,
        ← List.filter_append, ← List.flatMap_cons]

theorem filter_intercalate (segments : List String) :
    (separator.intercalate segments).toList.filter (· != ':') =
      (segments.flatMap String.toList).filter (· != ':') :=
  filter_toList_intercalate (by simp [separator]) segments

theorem ofSegments_segments (name : String) :
    ofSegments (segments name) = separator.intercalate (segments name) := by
  refine ofSegments_eq fun part hPart => ?_
  obtain ⟨text, hText, rfl⟩ := List.mem_map.mp hPart
  have hSome := (List.mem_filter.mp hText).2
  rintro hEmpty
  rw [String.ofList_eq_empty_iff.mp hEmpty] at hSome
  cases hSome

/-- A name keeps its characters but for colons. -/
theorem filter_ofSegments_segments (name : String) :
    (ofSegments (segments name)).toList.filter (· != ':') = name.toList.filter (· != ':') := by
  have hParts (parts : List (List Char)) :
      ((parts.filter (!·.isEmpty)).map String.ofList).flatMap String.toList = parts.flatten := by
    induction parts with
    | nil => rfl
    | cons part rest ih => cases part <;> simp_all
  rw [ofSegments_segments, filter_intercalate, segments_eq_parts, hParts, filter_flatten_parts]

theorem head?_intercalate {first : String} (h : IsSegment first) (rest : List String) :
    (separator.intercalate (first :: rest)).toList.head? ≠ some ':' := by
  -- a segment is not empty and has no colon
  have hFirst (more : List Char) : (first.toList ++ more).head? ≠ some ':' := by
    cases hText : first.toList with
    | nil => exact absurd (String.toList_eq_nil_iff.mp hText) h.1
    | cons c others =>
      intro hHead
      refine h.2 ?_
      rw [hText, ← Option.some.inj hHead]
      exact .head _
  cases rest with
  | nil =>
    rw [String.intercalate_singleton]
    simpa using hFirst []
  | cons second others =>
    rw [toList_intercalate_cons]
    exact hFirst _

/-- Behind any text, the segments are the end of the name. -/
theorem exists_ofSegments_append (text : String) : ∃ start : String, ∀ first rest,
    (∀ part ∈ first :: rest, IsSegment part) →
      ofSegments (segments (separator.intercalate (text :: first :: rest))) =
        start ++ separator.intercalate (first :: rest) := by
  obtain ⟨lead, last, hAppend⟩ := exists_parts_append text.toList
  let before := (lead.filter (!·.isEmpty)).map String.ofList
  refine ⟨(if before = [] then "" else separator.intercalate before ++ separator) ++
    String.ofList last, fun first rest h => ?_⟩
  obtain ⟨hFirst, hRest⟩ := List.forall_mem_cons.mp h
  have hSegments : segments (separator.intercalate (text :: first :: rest)) =
      before ++ (String.ofList last ++ first) :: rest := by
    have hHead : (last ++ first.toList).isEmpty = false := by
      simp [hFirst.1]
    rw [segments_eq_parts, toList_intercalate_cons,
      hAppend _ _ _ (head?_intercalate hFirst rest) (parts_intercalate h), List.filter_append,
      List.filter_cons, hHead, filter_toList hRest]
    simp [before]
  -- what is left of the text before goes over to the first part
  have hJoin : separator.intercalate ((String.ofList last ++ first) :: rest) =
      String.ofList last ++ separator.intercalate (first :: rest) := by
    cases rest with
    | nil => rw [String.intercalate_singleton, String.intercalate_singleton]
    | cons second others =>
      rw [String.intercalate_cons_cons, String.intercalate_cons_cons, String.append_assoc,
        String.append_assoc, String.append_assoc]
  rw [ofSegments_segments, hSegments, String.append_assoc, ← hJoin]
  split
  · rename_i hNone
    rw [hNone, List.nil_append, String.empty_append]
  · rename_i hSome
    rw [String.intercalate_append_of_ne_nil hSome (List.cons_ne_nil _ _)]

/-- A segment that is added to a text adds more than colons. -/
theorem filter_intercalate_ne {text first : String} {rest : List String}
    (h : IsSegment first) :
    (separator.intercalate (text :: first :: rest)).toList.filter (· != ':') ≠
      text.toList.filter (· != ':') := by
  rw [filter_intercalate, List.flatMap_cons, List.filter_append]
  intro hEq
  have hNone := List.append_right_eq_self.mp hEq
  rw [List.filter_eq_nil_iff] at hNone
  have hEmpty : first.toList = [] := by
    refine List.eq_nil_iff_forall_not_mem.mpr fun c hc => ?_
    have hColon : c = ':' := by
      simpa using hNone c (List.mem_flatMap.mpr ⟨first, .head _, hc⟩)
    exact h.2 (hColon ▸ hc)
  exact h.1 (String.toList_eq_nil_iff.mp hEmpty)

/-- Behind any text, the segments of a name can be told from the name. -/
theorem ofSegments_segments_injective {text : String} {segs segs' : List String}
    (h : ∀ s ∈ segs, IsSegment s) (h' : ∀ s ∈ segs', IsSegment s)
    (hEq : ofSegments (segments (separator.intercalate (text :: segs))) =
      ofSegments (segments (separator.intercalate (text :: segs')))) : segs = segs' := by
  have hKept := congrArg (fun name : String => name.toList.filter (· != ':')) hEq
  simp only [filter_ofSegments_segments] at hKept
  match segs, segs' with
  | [], [] => rfl
  | [], first :: rest =>
    rw [String.intercalate_singleton] at hKept
    exact absurd hKept.symm (filter_intercalate_ne (h' first (.head _)))
  | first :: rest, [] =>
    rw [String.intercalate_singleton] at hKept
    exact absurd hKept (filter_intercalate_ne (h first (.head _)))
  | first :: rest, first' :: rest' =>
    obtain ⟨start, hStart⟩ := exists_ofSegments_append text
    rw [hStart _ _ h, hStart _ _ h'] at hEq
    rw [← segments_intercalate h, (String.append_right_inj start).mp hEq, segments_intercalate h']

end Ambient.QualifiedName
