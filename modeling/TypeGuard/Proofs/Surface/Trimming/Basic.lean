import TypeGuard.Proofs.Surface.Grammar
import TypeGuard.Proofs.Surface.Trees

/-!
# Forms that are read like their trimmed forms

A list in which some items are passed over is read like the list without them, and if it can be
read, then what is left is exact. `Form.reads_list` says so of a list if it holds of the items behind
its tag (`Form.ReadsItems`), which are taken one after the other; below it there is one lemma for
each shape that several productions have.
-/

namespace TypeGuard

/-- The two outcomes are the same value, or none of them is a value. -/
def Alike {ε α : Type} (x y : Except ε α) : Prop := ∀ a, x = .ok a ↔ y = .ok a

namespace Alike

variable {ε α β : Type} {x y z : Except ε α} {f g : α → Except ε β}

theorem refl (x : Except ε α) : Alike x x := fun _ => Iff.rfl

theorem symm (h : Alike x y) : Alike y x := fun a => (h a).symm

theorem trans (h : Alike x y) (h' : Alike y z) : Alike x z := fun a => (h a).trans (h' a)

theorem bind (h : Alike x y) (each : ∀ a, Alike (f a) (g a)) : Alike (x >>= f) (y >>= g) := by
  intro b
  simp only [bind_eq_ok_iff]
  constructor
  · rintro ⟨a, value, next⟩
    exact ⟨a, (h a).1 value, (each a b).1 next⟩
  · rintro ⟨a, value, next⟩
    exact ⟨a, (h a).2 value, (each a b).2 next⟩

theorem of_ne (hx : ∀ a, x ≠ .ok a) (hy : ∀ a, y ≠ .ok a) : Alike x y :=
  fun a => iff_of_false (hx a) (hy a)

/-- It does not matter which of two things is read first. -/
theorem swap {γ : Type} (x : Except ε α) (y : Except ε β) (k : α → β → Except ε γ) :
    Alike (do let b ← y; let a ← x; k a b) (do let a ← x; let b ← y; k a b) := by
  intro c
  simp only [bind_eq_ok_iff]
  constructor
  · rintro ⟨b, second, a, first, next⟩
    exact ⟨a, first, b, second, next⟩
  · rintro ⟨a, first, b, second, next⟩
    exact ⟨b, second, a, first, next⟩

theorem reverse {γ δ : Type} (x : Except ε α) (y : Except ε β) (z : Except ε γ)
    (k : α → β → γ → Except ε δ) :
    Alike (do let c ← z; let b ← y; let a ← x; k a b c)
      (do let a ← x; let b ← y; let c ← z; k a b c) :=
  (bind (refl z) fun _ => swap x y _).trans
    ((swap x z _).trans (bind (refl x) fun _ => swap y z _))

end Alike

namespace Form

/-- The form is read like its trimmed form, which is exact if it can be read. -/
structure Reads {α : Type} (read : Form → Except ParseError α) (role : Role) (form : Form) :
    Prop where
  alike : Alike (read (form.trim role)) (read form)
  exact : ∀ {a}, read form = .ok a → (form.trim role).isExact role = true

section
variable {α β γ : Type} {read : Form → Except ParseError α} {role : Role}

theorem reads_of_ne {form : Form} (trimmed : form.trim role = form)
    (refused : ∀ a, read form ≠ .ok a) : Reads read role form :=
  ⟨by rw [trimmed]; exact .refl _, fun h => absurd h (refused _)⟩

theorem reads_of_exact {form : Form} (h : form.isExact role = true) : Reads read role form := by
  have trimmed := trim_eq_self h
  exact ⟨by rw [trimmed]; exact .refl _, fun _ => by rwa [trimmed]⟩

theorem reads_asSymbol (role : Role) (form : Form) : Reads asSymbol role form := by
  cases form with
  | list items position =>
    obtain ⟨items', same⟩ := trim_list role items position
    exact ⟨.of_ne (by simp [same, asSymbol]) (by simp [asSymbol]), by simp [asSymbol]⟩
  | symbol | text | number | quoted | brackets => exact reads_of_exact rfl

theorem reads_asString (role : Role) (form : Form) : Reads asString role form := by
  cases form with
  | list items position =>
    obtain ⟨items', same⟩ := trim_list role items position
    exact ⟨.of_ne (by simp [same, asString]) (by simp [asString]), by simp [asString]⟩
  | symbol | text | number | quoted | brackets => exact reads_of_exact rfl

theorem Reads.bind {read : Form → Except ParseError β} {form : Form} (h : Reads read role form)
    (k : β → Except ParseError α) : Reads (fun form => read form >>= k) role form := by
  refine ⟨h.alike.bind fun _ => .refl _, fun value => ?_⟩
  obtain ⟨b, inside, -⟩ := bind_eq_ok_iff.1 value
  exact h.exact inside

/-! ## The items of a list -/

/-- The items are read like what is left of them, which is exact if they can be read. -/
structure ReadsItems {α : Type} (readItems : List Form → Except ParseError α) (roles : List Role)
    (remainder : Remainder) (items : List Form) : Prop where
  alike : Alike (readItems (trimItems roles remainder items)) (readItems items)
  exact : ∀ {a}, readItems items = .ok a →
    isExactItems roles remainder (trimItems roles remainder items) = true

variable {readItems : List Form → Except ParseError α} {roles : List Role} {remainder : Remainder}
  {items : List Form}

theorem readsItems_nil : ReadsItems readItems roles remainder [] := ⟨.refl _, fun _ => rfl⟩

/-- Items that are not looked at. -/
theorem readsItems_ignored (x : Except ParseError α) :
    ReadsItems (fun _ => x) [] .ignored items := by
  refine ⟨.refl _, fun _ => ?_⟩
  cases items <;> rfl

/-- The first item, which is known by its tag, is read before the others. -/
theorem readsItems_tagged {readFirst : Form → Except ParseError β}
    {readRest : β → List Form → Except ParseError α} {r : Role} {form : Form}
    (split : ∀ other items, other.head? = form.head? →
      Alike (readItems (other :: items)) (do let b ← readFirst other; readRest b items))
    (first : Reads readFirst r form) (rest : ∀ b, ReadsItems (readRest b) roles remainder items) :
    ReadsItems readItems (r :: roles) remainder (form :: items) := by
  refine ⟨?_, fun value => ?_⟩
  · rw [trimItems]
    refine (split _ _ (head?_trim r form)).trans (.trans ?_ (split form items rfl).symm)
    exact first.alike.bind fun b => (rest b).alike
  · obtain ⟨b, inside, value⟩ := bind_eq_ok_iff.1 ((split form items rfl _).1 value)
    simp [trimItems, isExactItems, first.exact inside, (rest b).exact value]

theorem readsItems_cons {readFirst : Form → Except ParseError β}
    {readRest : β → List Form → Except ParseError α} {r : Role} {form : Form}
    (split : ∀ form items,
      Alike (readItems (form :: items)) (do let b ← readFirst form; readRest b items))
    (first : Reads readFirst r form) (rest : ∀ b, ReadsItems (readRest b) roles remainder items) :
    ReadsItems readItems (r :: roles) remainder (form :: items) :=
  readsItems_tagged (fun other items _ => split other items) first rest

/-- The first item has to be a name. -/
theorem readsItems_name {form : Form}
    (refused : ∀ form items, (∀ name, form ≠ .symbol name) → ∀ a, readItems (form :: items) ≠ .ok a)
    (rest : ∀ name,
      ReadsItems (fun items => readItems (.symbol name :: items)) roles remainder items) :
    ReadsItems readItems (.atom :: roles) remainder (form :: items) := by
  refine readsItems_cons (fun form items => ?_) (reads_asSymbol .atom form) rest
  cases form with
  | symbol name => exact .refl _
  | list | text | number | quoted | brackets =>
    exact .of_ne (refused _ items (by simp)) (by simp [asSymbol, bind_eq_ok_iff])

theorem ReadsItems.bind {readItems : List Form → Except ParseError β}
    (h : ReadsItems readItems roles remainder items) (k : β → Except ParseError α) :
    ReadsItems (fun items => readItems items >>= k) roles remainder items := by
  refine ⟨h.alike.bind fun _ => .refl _, fun value => ?_⟩
  obtain ⟨b, inside, -⟩ := bind_eq_ok_iff.1 value
  exact h.exact inside

/-- Two ways of reading that are alike on these items and on what is left of them. -/
theorem ReadsItems.of_alike {readOthers : List Form → Except ParseError α}
    (h : ReadsItems readOthers roles remainder items)
    (same : Alike (readItems items) (readOthers items))
    (trimmed : Alike (readItems (trimItems roles remainder items))
      (readOthers (trimItems roles remainder items))) :
    ReadsItems readItems roles remainder items :=
  ⟨trimmed.trans (h.alike.trans same.symm), fun value => h.exact ((same _).1 value)⟩

/-- Items that are all of one role. -/
theorem readsItems_each {readFirst : Form → Except ParseError β} {r : Role} {combine : β → α → α}
    (each : ∀ form forms, Alike (readItems (form :: forms))
      (do return combine (← readFirst form) (← readItems forms))) :
    ∀ {items : List Form}, (∀ form ∈ items, Reads readFirst r form) →
      ReadsItems readItems [] (.each r) items
  | [], _ => readsItems_nil
  | form :: forms, h => by
    obtain ⟨first, others⟩ := List.forall_mem_cons.1 h
    have rest := readsItems_each each others
    refine ⟨?_, fun value => ?_⟩
    · rw [trimItems]
      refine (each _ _).trans (.trans ?_ (each form forms).symm)
      exact first.alike.bind fun _ => rest.alike.bind fun _ => .refl _
    · obtain ⟨b, inside, value⟩ := bind_eq_ok_iff.1 ((each form forms _).1 value)
      obtain ⟨a, behind, -⟩ := bind_eq_ok_iff.1 value
      simp [trimItems, isExactItems, first.exact inside, rest.exact behind]

/-! ## Lists -/

variable {tag : String} {position : Position}

/-- A list is read like its trimmed form if the items behind the tag are read like what is left of
them, at least if there are as many as the production asks for. The production may depend on the
items, but not on those that are passed over. -/
theorem reads_list {p : List Form → Production} (tagged : role.each? = none)
    (rule : ∀ items, production role tag items = some (p items))
    (stable : p (trimItems (p items).roles (p items).remainder items) = p items)
    (plain : (p items).pattern = false) (bound : (p items).required ≤ (p items).roles.length)
    (short : ∀ items, items.length < (p items).required →
      ∀ a, read (.list (.symbol tag :: items) position) ≠ .ok a)
    (inside : (p items).required ≤ items.length →
      ReadsItems (fun items => read (.list (.symbol tag :: items) position)) (p items).roles
        (p items).remainder items) :
    Reads read role (.list (.symbol tag :: items) position) := by
  have trimmed := trim_tagged tagged tag items position (rule items)
  simp only [plain, Bool.false_eq_true, if_false] at trimmed
  by_cases enough : (p items).required ≤ items.length
  · refine ⟨?_, fun value => ?_⟩
    · rw [trimmed]
      exact (inside enough).alike
    · rw [trimmed]
      simp [isExact, tagged, isExactTagged, rule, stable, plain, le_length_trimItems enough bound,
        (inside enough).exact value]
  · have refused := short items (Nat.lt_of_not_le enough)
    refine ⟨.of_ne ?_ refused, fun value => absurd value (refused _)⟩
    rw [trimmed]
    refine short _ ?_
    rw [stable]
    exact Nat.lt_of_le_of_lt length_trimItems_le (Nat.lt_of_not_le enough)

/-- A list of one item behind the tag, where further ones are passed over. -/
theorem reads_one {readFirst : Form → Except ParseError β} {r : Role} {k : β → Except ParseError α}
    (tagged : role.each? = none)
    (rule : ∀ items, production role tag items = some (.exactly [r] .ignored))
    (first : ∀ form more, Alike (read (.list (.symbol tag :: form :: more) position))
      (readFirst form >>= k))
    (short : ∀ a, read (.list [.symbol tag] position) ≠ .ok a)
    (h : ∀ form ∈ items, Reads readFirst r form) :
    Reads read role (.list (.symbol tag :: items) position) := by
  refine reads_list tagged rule rfl rfl (Nat.le_refl _) (fun items few => ?_) fun enough => ?_
  · match items, few with
    | [], _ => exact short
  · match items, enough, h with
    | form :: more, _, h =>
      exact readsItems_cons first (h form (List.mem_cons_self ..)) fun b => readsItems_ignored (k b)

/-- A list of two items behind the tag, where further ones are passed over. -/
theorem reads_two {readFirst : Form → Except ParseError β} {readSecond : Form → Except ParseError γ}
    {r r' : Role} {k : β → γ → Except ParseError α}
    (tagged : role.each? = none)
    (rule : ∀ items, production role tag items = some (.exactly [r, r'] .ignored))
    (both : ∀ form form' more, Alike (read (.list (.symbol tag :: form :: form' :: more) position))
      (do let b ← readFirst form; let c ← readSecond form'; k b c))
    (short : ∀ items, items.length < 2 → ∀ a, read (.list (.symbol tag :: items) position) ≠ .ok a)
    (h : ∀ form ∈ items, Reads readFirst r form) (h' : ∀ form ∈ items, Reads readSecond r' form) :
    Reads read role (.list (.symbol tag :: items) position) := by
  refine reads_list tagged rule rfl rfl (Nat.le_refl _) short fun enough => ?_
  let readRest (b : β) (more : List Form) : Except ParseError α :=
    more.head?.elim (read (.list [.symbol tag] position)) fun form' => do k b (← readSecond form')
  have split : ∀ form more, Alike (read (.list (.symbol tag :: form :: more) position))
      (do let b ← readFirst form; readRest b more) := by
    intro form more
    cases more with
    | nil =>
      have none := short [] (by simp)
      exact .of_ne (short [form] (by simp)) (by simp [bind_eq_ok_iff, readRest, none])
    | cons form' more => exact both form form' more
  rcases items with _ | ⟨form, _ | ⟨form', more⟩⟩
  · simp [Production.exactly] at enough
  · simp [Production.exactly] at enough
  · refine readsItems_cons split (h form (by simp)) fun b => ?_
    exact readsItems_cons (fun _ _ => .refl _) (h' form' (by simp))
      fun c => readsItems_ignored (k b c)

/-- A list of one or two items behind the tag, where further ones are passed over. -/
theorem reads_optional {readFirst : Form → Except ParseError β}
    {readSecond : Form → Except ParseError γ} {r r' : Role} {k : β → Except ParseError α}
    {m : β → γ → Except ParseError α}
    (tagged : role.each? = none)
    (rule : ∀ items, production role tag items = some ⟨[r, r'], 1, .ignored, false⟩)
    (one : ∀ form, Alike (read (.list [.symbol tag, form] position)) (readFirst form >>= k))
    (both : ∀ form form' more, Alike (read (.list (.symbol tag :: form :: form' :: more) position))
      (do let b ← readFirst form; let c ← readSecond form'; m b c))
    (short : ∀ a, read (.list [.symbol tag] position) ≠ .ok a)
    (h : ∀ form ∈ items, Reads readFirst r form) (h' : ∀ form ∈ items, Reads readSecond r' form) :
    Reads read role (.list (.symbol tag :: items) position) := by
  refine reads_list tagged rule rfl rfl (by simp) (fun items few => ?_) fun enough => ?_
  · match items, few with
    | [], _ => exact short
  · let readRest (b : β) : List Form → Except ParseError α
      | form' :: _ => do m b (← readSecond form')
      | [] => k b
    have split : ∀ form more, Alike (read (.list (.symbol tag :: form :: more) position))
        (do let b ← readFirst form; readRest b more) := by
      intro form more
      cases more with
      | nil => exact one form
      | cons form' more => exact both form form' more
    match items, enough, h, h' with
    | [form], _, h, _ => exact readsItems_cons split (h form (by simp)) fun b => readsItems_nil
    | form :: form' :: more, _, h, h' =>
      refine readsItems_cons split (h form (by simp)) fun b => ?_
      exact readsItems_cons (fun _ _ => .refl _) (h' form' (by simp))
        fun c => readsItems_ignored (m b c)

/-- A list of any number of items behind the tag. -/
theorem reads_each {readAll : List Form → Except ParseError β} {r : Role}
    {k : β → Except ParseError α}
    (tagged : role.each? = none)
    (rule : ∀ items, production role tag items = some (.exactly [] (.each r)))
    (all : ∀ items, Alike (read (.list (.symbol tag :: items) position)) (readAll items >>= k))
    (h : ReadsItems readAll [] (.each r) items) :
    Reads read role (.list (.symbol tag :: items) position) := by
  refine reads_list tagged rule rfl rfl (Nat.le_refl _)
    (fun _ few => absurd few (Nat.not_lt_zero _)) fun _ => ⟨?_, fun value => ?_⟩
  · exact (all _).trans ((h.bind k).alike.trans (all items).symm)
  · exact (h.bind k).exact ((all items _).1 value)

/-- Likewise, if there is at least one item. -/
theorem reads_some {readAll : List Form → Except ParseError β} {r : Role}
    {k : β → Except ParseError α}
    (tagged : role.each? = none)
    (rule : ∀ items, production role tag items = some (.exactly [r] (.each r)))
    (all : ∀ form more, Alike (read (.list (.symbol tag :: form :: more) position))
      (readAll (form :: more) >>= k))
    (short : ∀ a, read (.list [.symbol tag] position) ≠ .ok a)
    (h : ReadsItems readAll [] (.each r) items) :
    Reads read role (.list (.symbol tag :: items) position) := by
  refine reads_list tagged rule rfl rfl (Nat.le_refl _) (fun items few => ?_) fun enough => ?_
  · match items, few with
    | [], _ => exact short
  · match items, enough, h with
    | form :: more, _, h =>
      refine ⟨?_, fun value => ?_⟩
      · exact (all _ _).trans ((h.bind k).alike.trans (all form more).symm)
      · exact (h.bind k).exact ((all form more _).1 value)

/-- A list of any number of items without a tag. -/
theorem reads_untagged {r : Role} (repeated : role.each? = some r)
    (h : ReadsItems readItems [] (.each r) items) :
    Reads (fun form => form.asList >>= readItems) role (.list items position) := by
  have trimmed : (Form.list items position).trim role
      = .list (trimItems [] (.each r) items) position := by
    simp [trim, repeated]
  refine ⟨?_, fun value => ?_⟩
  · rw [trimmed]
    exact h.alike
  · rw [trimmed]
    simpa [isExact, repeated] using h.exact value

end

end Form

end TypeGuard
