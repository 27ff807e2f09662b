import TypeGuard.Proofs.Surface.Trimming.Ty

/-!
# Patterns are read like their trimmed forms

In a pattern the name for the rest counts wherever it stands, and of several such names the last
one. So a pattern is read like the pattern in which this name comes last and the others are left out.
-/

namespace TypeGuard

namespace Form

@[simp] theorem isRest_trim (role : Role) (form : Form) :
    (form.trim role).isRest = form.isRest := by
  simp [isRest]

theorem isExactItems_each (role : Role) (items : List Form) :
    isExactItems [] (.each role) items = items.all (isExact role) := by
  induction items with
  | nil => rfl
  | cons item items ih => simp [isExactItems, ih]

/-- The items of a pattern are read one by one; the last name for the rest counts. -/
structure PatternReader {α : Type} (file : String) (read : Form → Except ParseError α)
    (readAll : List Form → Except ParseError (List α × Option String)) : Prop where
  nil : readAll [] = .ok ([], none)
  rest : ∀ form forms, form.isRest = true → readAll (form :: forms) = do
    let name ← Pattern.restOfForm file form
    let others ← readAll forms
    return (others.1, some (others.2.getD name))
  other : ∀ form forms, form.isRest = false → readAll (form :: forms) = do
    let first ← read form
    let others ← readAll forms
    return (first :: others.1, others.2)

theorem patternReader_fields (file : String) :
    PatternReader file (Pattern.fieldOfForm file) (Pattern.fieldsOfForms file) where
  nil := rfl
  rest form forms h := by
    have tag : form.head? = some "rest" := by simpa [isRest] using h
    rw [Pattern.fieldsOfForms, if_pos tag]
  other form forms h := by
    have tag : form.head? ≠ some "rest" := by simpa [isRest] using h
    rw [Pattern.fieldsOfForms, if_neg tag]

theorem patternReader_elements (file : String) :
    PatternReader file (Pattern.elementOfForm file) (Pattern.elementsOfForms file) where
  nil := rfl
  rest form forms h := by
    have tag : form.head? = some "rest" := by simpa [isRest] using h
    rw [Pattern.elementsOfForms, if_pos tag]
  other form forms h := by
    have tag : form.head? ≠ some "rest" := by simpa [isRest] using h
    rw [Pattern.elementsOfForms, if_neg tag]

section
variable {α : Type} {file : String} {read : Form → Except ParseError α}
  {readAll : List Form → Except ParseError (List α × Option String)}

theorem restOfForm_eq_ok_iff {form : Form} {name : String} :
    Pattern.restOfForm file form = .ok name ↔ form.restName? = some name := by
  match form with
  | .list (_ :: second :: _) _ =>
    cases second <;> simp [Pattern.restOfForm, restName?, asSymbol]
  | .list [] _ | .list [_] _ | .symbol _ | .text _ | .number _ | .quoted _ | .brackets _ =>
    simp [Pattern.restOfForm, restName?]

/-- The name that counts. -/
theorem getLast?_restName? {form : Form} {forms : List Form} {name : String}
    (first : form.restName? = some name) (named : ∀ item ∈ forms, item.restName?.isSome = true) :
    (form :: forms).getLast?.bind restName? = some ((forms.getLast?.bind restName?).getD name) := by
  rcases List.eq_nil_or_concat forms with rfl | ⟨front, last, rfl⟩
  · simp [first]
  · obtain ⟨other, same⟩ := Option.isSome_iff_exists.1 (named last (by simp))
    rw [List.concat_eq_append, ← List.cons_append, List.getLast?_concat, List.getLast?_concat]
    simp [same]

/-- What a pattern is read as. -/
theorem PatternReader.readAll_eq_ok_iff (reader : PatternReader file read readAll)
    {items : List Form} {parts : List α} {rest : Option String} :
    readAll items = .ok (parts, rest) ↔ (items.filter (!·.isRest)).mapM read = .ok parts ∧
      (∀ item ∈ items.filter (·.isRest), item.restName?.isSome = true) ∧
      (lastRest? items).bind restName? = rest := by
  unfold lastRest?
  induction items generalizing parts rest with
  | nil => simp [reader.nil, pure, Except.pure]
  | cons form forms ih =>
    cases isRest : form.isRest with
    | true =>
      rw [reader.rest form forms isRest]
      simp only [bind_eq_ok_iff, pure_eq_ok_iff, restOfForm_eq_ok_iff, Prod.exists, ih,
        List.filter_cons_of_pos isRest, List.forall_mem_cons]
      have skipped : (form :: forms).filter (!·.isRest) = forms.filter (!·.isRest) := by
        simp [isRest]
      rw [skipped]
      constructor
      · rintro ⟨name, first, others, _, ⟨read, named, rfl⟩, same⟩
        obtain ⟨rfl, rfl⟩ := Prod.mk.inj same
        exact ⟨read, ⟨by simp [first], named⟩, getLast?_restName? first named⟩
      · rintro ⟨read, ⟨first, named⟩, rfl⟩
        obtain ⟨name, first⟩ := Option.isSome_iff_exists.1 first
        exact ⟨name, first, parts, _, ⟨read, named, rfl⟩, by rw [getLast?_restName? first named]⟩
    | false =>
      have kept : (form :: forms).filter (!·.isRest) = form :: forms.filter (!·.isRest) := by
        simp [isRest]
      have none : (form :: forms).filter (·.isRest) = forms.filter (·.isRest) := by simp [isRest]
      rw [reader.other form forms isRest, kept, none, List.mapM_cons]
      simp only [bind_eq_ok_iff, pure_eq_ok_iff, Prod.exists, ih]
      constructor
      · rintro ⟨first, read, others, _, ⟨behind, named, rfl⟩, same⟩
        obtain ⟨rfl, rfl⟩ := Prod.mk.inj same
        exact ⟨⟨first, read, others, behind, rfl⟩, named, rfl⟩
      · rintro ⟨⟨first, read, others, behind, rfl⟩, named, rfl⟩
        exact ⟨first, read, others, _, ⟨behind, named, rfl⟩, rfl⟩

/-! ## Settled patterns -/

/-- The items of a pattern are read like their trimmed forms. -/
theorem PatternReader.readsItems (reader : PatternReader file read readAll) {r : Role} :
    ∀ {items : List Form}, (∀ form ∈ items, (form.isRest = true →
      Reads (Pattern.restOfForm file) r form) ∧ (form.isRest = false → Reads read r form)) →
    ReadsItems readAll [] (.each r) items
  | [], _ => readsItems_nil
  | form :: forms, h => by
    obtain ⟨first, others⟩ := List.forall_mem_cons.1 h
    have behind := reader.readsItems others
    cases rest : form.isRest with
    | true =>
      have hf := first.1 rest
      refine ⟨?_, fun value => ?_⟩
      · rw [trimItems, reader.rest form forms rest, reader.rest _ _ (by rwa [isRest_trim])]
        exact hf.alike.bind fun _ => behind.alike.bind fun _ => .refl _
      · rw [reader.rest form forms rest] at value
        obtain ⟨_, inside, value⟩ := bind_eq_ok_iff.1 value
        obtain ⟨_, value, -⟩ := bind_eq_ok_iff.1 value
        simp [trimItems, isExactItems, hf.exact inside, behind.exact value]
    | false =>
      have hf := first.2 rest
      refine ⟨?_, fun value => ?_⟩
      · rw [trimItems, reader.other form forms rest, reader.other _ _ (by rwa [isRest_trim])]
        exact hf.alike.bind fun _ => behind.alike.bind fun _ => .refl _
      · rw [reader.other form forms rest] at value
        obtain ⟨_, inside, value⟩ := bind_eq_ok_iff.1 value
        obtain ⟨_, value, -⟩ := bind_eq_ok_iff.1 value
        simp [trimItems, isExactItems, hf.exact inside, behind.exact value]

theorem mem_of_lastRest? {items : List Form} {item : Form} (h : item ∈ (lastRest? items).toList) :
    item ∈ items.filter (·.isRest) :=
  List.mem_of_getLast? (Option.mem_toList.1 h)

/-- The parts of a settled pattern. -/
theorem filter_settle {items : List Form}
    (named : ∀ item ∈ items.filter (·.isRest), item.restName?.isSome = true) :
    settle items = items.filter (!·.isRest) ++ (lastRest? items).toList ∧
      (settle items).filter (!·.isRest) = items.filter (!·.isRest) ∧
      (settle items).filter (·.isRest) = (lastRest? items).toList := by
  have all : items.all (fun item => !item.isRest || item.restName?.isSome) = true := by
    rw [List.all_eq_true]
    intro item member
    cases rest : item.isRest with
    | false => rfl
    | true => exact named item (List.mem_filter.2 ⟨member, rest⟩)
  have settled : settle items = items.filter (!·.isRest) ++ (lastRest? items).toList := if_pos all
  have last : ∀ item ∈ (lastRest? items).toList, item.isRest = true :=
    fun item member => (List.mem_filter.1 (mem_of_lastRest? member)).2
  have plain : ∀ item ∈ items.filter (!·.isRest), (!item.isRest) = true :=
    fun item member => (List.mem_filter.1 member).2
  refine ⟨settled, ?_, ?_⟩
  · have dropped : (lastRest? items).toList.filter (!·.isRest) = [] := by
      rw [List.filter_eq_nil_iff]
      intro item member
      simp [last item member]
    rw [settled, List.filter_append, List.filter_eq_self.2 plain, dropped, List.append_nil]
  · have dropped : (items.filter (!·.isRest)).filter (·.isRest) = [] := by
      rw [List.filter_eq_nil_iff]
      intro item member
      simpa using plain item member
    rw [settled, List.filter_append, List.filter_eq_self.2 last, dropped, List.nil_append]

/-- A pattern is read like the settled one. -/
theorem PatternReader.alike_settle (reader : PatternReader file read readAll) (items : List Form) :
    Alike (readAll (settle items)) (readAll items) := by
  by_cases named : ∀ item ∈ items.filter (·.isRest), item.restName?.isSome = true
  · obtain ⟨-, fields, rests⟩ := filter_settle named
    have last : ∀ item ∈ (lastRest? items).toList, item.restName?.isSome = true :=
      fun item member => named item (mem_of_lastRest? member)
    have same : lastRest? (settle items) = lastRest? items := by
      rw [lastRest?, rests]
      cases lastRest? items <;> rfl
    rintro ⟨parts, rest⟩
    rw [reader.readAll_eq_ok_iff, reader.readAll_eq_ok_iff, fields, rests, same]
    exact ⟨fun h => ⟨h.1, named, h.2.2⟩, fun h => ⟨h.1, last, h.2.2⟩⟩
  · have kept : settle items = items := by
      refine if_neg fun all => named fun item member => ?_
      obtain ⟨found, rest⟩ := List.mem_filter.1 member
      simpa [rest] using List.all_eq_true.1 all item found
    rw [kept]
    exact .refl _

/-- In a settled pattern only the last item is for the rest. -/
theorem restLast_settle {items : List Form}
    (named : ∀ item ∈ items.filter (·.isRest), item.restName?.isSome = true) :
    restLast (settle items) = true := by
  have plain : ∀ item ∈ items.filter (!·.isRest), (!item.isRest) = true :=
    fun item member => (List.mem_filter.1 member).2
  rw [restLast, (filter_settle named).1, List.all_eq_true]
  cases lastRest? items with
  | none =>
    rw [Option.toList_none, List.append_nil]
    exact fun item member => plain item (List.dropLast_subset _ member)
  | some last =>
    rw [Option.toList_some, List.dropLast_concat]
    exact plain

theorem mem_of_mem_settle {items : List Form} {item : Form} (h : item ∈ settle items) :
    item ∈ items := by
  unfold settle at h
  split at h
  · rcases List.mem_append.1 h with plain | last
    · exact (List.mem_filter.1 plain).1
    · exact (List.mem_filter.1 (mem_of_lastRest? last)).1
  · exact h

theorem isExactItems_settle {r : Role} {items : List Form}
    (h : isExactItems [] (.each r) items = true) :
    isExactItems [] (.each r) (settle items) = true := by
  rw [isExactItems_each, List.all_eq_true] at h ⊢
  exact fun item member => h item (mem_of_mem_settle member)

/-- The list of a pattern. -/
theorem reads_pattern (reader : PatternReader file read readAll) {β : Type}
    {readList : Form → Except ParseError β} {role r : Role} {tag : String} {args : List Form}
    {position : Position} {k : List α × Option String → Except ParseError β}
    (tagged : role.each? = none)
    (rule : ∀ args, production role tag args = some ⟨[], 0, .each r, true⟩)
    (all : ∀ args, Alike (readList (.list (.symbol tag :: args) position)) (readAll args >>= k))
    (h : ReadsItems readAll [] (.each r) args) :
    Reads readList role (.list (.symbol tag :: args) position) := by
  have trimmed := trim_tagged tagged tag args position (rule args)
  rw [if_pos rfl] at trimmed
  refine ⟨?_, fun value => ?_⟩
  · rw [trimmed]
    refine (all _).trans (.trans (Alike.bind ?_ fun _ => .refl _) (all args).symm)
    exact (reader.alike_settle _).trans h.alike
  · obtain ⟨⟨parts, rest⟩, inside, -⟩ := bind_eq_ok_iff.1 ((all args _).1 value)
    have named := (reader.readAll_eq_ok_iff.1 ((h.alike _).2 inside)).2.1
    rw [trimmed]
    simp [isExact, tagged, isExactTagged, rule, restLast_settle named,
      isExactItems_settle (h.exact inside)]

end

/-! ## Targets, fields and elements -/

section
variable {file tag : String} {args : List Form} {position : Position}

/-- An item for the rest, in a role in which further items are passed over. -/
theorem reads_rest {role r : Role} (tagged : role.each? = none)
    (rule : ∀ args, production role "rest" args = some (.exactly [r] .ignored)) {form : Form}
    (h : form.isRest = true) : Reads (Pattern.restOfForm file) role form := by
  obtain ⟨items, position, rfl⟩ := eq_list_of_head? (by simpa [isRest] using h)
  refine reads_one tagged rule (k := pure) (fun form more => ?_)
    (fun a => Form.refuse_ne_ok) fun form _ => reads_asSymbol r form
  rw [bind_pure]
  exact .refl _

/-- An object pattern. -/
theorem reads_object {α : Type} {read : Form → Except ParseError α} {role : Role}
    {k : List (PatternField Pattern) × Option String → Except ParseError α}
    (tagged : role.each? = none)
    (rule : ∀ args, production role tag args = some ⟨[], 0, .each .field, true⟩)
    (all : ∀ args, Alike (read (.list (.symbol tag :: args) position))
      (Pattern.fieldsOfForms file args >>= k))
    (h : ∀ form ∈ args, Reads (Pattern.fieldOfForm file) .field form) :
    Reads read role (.list (.symbol tag :: args) position) :=
  reads_pattern (patternReader_fields file) tagged rule all
    ((patternReader_fields file).readsItems fun form mem =>
      ⟨reads_rest rfl fun _ => rfl, fun _ => h form mem⟩)

/-- An array pattern. -/
theorem reads_array {α : Type} {read : Form → Except ParseError α} {role : Role}
    {k : List (Option Pattern) × Option String → Except ParseError α}
    (tagged : role.each? = none)
    (rule : ∀ args, production role tag args = some ⟨[], 0, .each .element, true⟩)
    (all : ∀ args, Alike (read (.list (.symbol tag :: args) position))
      (Pattern.elementsOfForms file args >>= k))
    (h : ∀ form ∈ args, Reads (Pattern.elementOfForm file) .element form) :
    Reads read role (.list (.symbol tag :: args) position) :=
  reads_pattern (patternReader_elements file) tagged rule all
    ((patternReader_elements file).readsItems fun form mem =>
      ⟨reads_rest rfl fun _ => rfl, fun _ => h form mem⟩)

theorem reads_target (hf : ∀ form ∈ args, Reads (Pattern.fieldOfForm file) .field form)
    (he : ∀ form ∈ args, Reads (Pattern.elementOfForm file) .element form) :
    Reads (Pattern.ofForm file) .target (.list (.symbol tag :: args) position) := by
  by_cases object : tag = "obj"
  · subst object
    exact reads_object rfl (fun _ => rfl) (k := fun parts => .ok (.object parts.1 parts.2))
      (fun args => .refl _) hf
  · by_cases array : tag = "arr"
    · subst array
      exact reads_array rfl (fun _ => rfl) (k := fun parts => .ok (.array parts.1 parts.2))
        (fun args => .refl _) he
    · refine reads_of_ne ?_ fun a => ?_
      · simp [trim, trimTagged, Role.each?, production, targetProduction, object, array]
      · simp [Pattern.ofForm, object, array]

theorem reads_field (hf : ∀ form ∈ args, Reads (Pattern.fieldOfForm file) .field form)
    (ht : ∀ form ∈ args, Reads (Pattern.ofForm file) .target form)
    (he : ∀ form ∈ args, Reads (Expr.ofForm file) .expr form) :
    Reads (Pattern.fieldOfForm file) .field (.list (.symbol tag :: args) position) := by
  by_cases default : tag = "default"
  · subst default
    refine reads_two rfl (fun _ => rfl)
      (k := fun field value => .ok ⟨field.key, .default field.value value⟩)
      (fun _ _ _ => .refl _) (fun args short a => ?_) hf he
    match args, short with
    | [], _ | [_], _ => exact Position.refuse_ne_ok
  · refine reads_one rfl (fun _ => ?_) (k := fun target => .ok ⟨tag, target⟩) (fun form more => ?_)
      (fun a => Position.refuse_ne_ok) ht
    · simp [production, default]
    · have keyed : Pattern.fieldOfForm file (.list (.symbol tag :: form :: more) position)
          = do return ⟨tag, ← Pattern.ofForm file form⟩ := by
        cases more <;> exact if_neg default
      rw [keyed]
      exact .refl _

theorem reads_element (hf : ∀ form ∈ args, Reads (Pattern.fieldOfForm file) .field form)
    (hl : ∀ form ∈ args, Reads (Pattern.elementOfForm file) .element form)
    (ht : ∀ form ∈ args, Reads (Pattern.ofForm file) .target form)
    (he : ∀ form ∈ args, Reads (Expr.ofForm file) .expr form) :
    Reads (Pattern.elementOfForm file) .element (.list (.symbol tag :: args) position) := by
  by_cases default : tag = "default"
  · subst default
    refine reads_two rfl (fun _ => rfl)
      (k := fun target value => .ok (some (.default target value))) (fun _ _ _ => .refl _)
      (fun args short a => ?_) ht he
    match args, short with
    | [], _ | [_], _ => exact Position.refuse_ne_ok
  · by_cases object : tag = "obj"
    · subst object
      exact reads_object rfl (fun _ => rfl) (k := fun parts => .ok (some (.object parts.1 parts.2)))
        (fun args => .refl _) hf
    · by_cases array : tag = "arr"
      · subst array
        exact reads_array rfl (fun _ => rfl) (k := fun parts => .ok (some (.array parts.1 parts.2)))
          (fun args => .refl _) hl
      · have refused : ∀ args a,
            Pattern.elementOfForm file (.list (.symbol tag :: args) position) ≠ .ok a := by
          intro args a
          unfold Pattern.elementOfForm
          rw [if_neg default, if_neg object, if_neg array]
          exact Position.refuse_ne_ok
        have trimmed : ∃ args', (Form.list (.symbol tag :: args) position).trim .element
            = .list (.symbol tag :: args') position := by
          simp only [trim, trimTagged, Role.each?]
          split <;> exact ⟨_, rfl⟩
        obtain ⟨args', trimmed⟩ := trimmed
        exact ⟨.of_ne (by rw [trimmed]; exact refused args') (refused args),
          fun value => absurd value (refused args _)⟩

end

end Form

end TypeGuard
