import TypeGuard.Files.Tree
import Mathlib.Data.Bool.Basic
import Mathlib.Data.List.Basic
import Mathlib.Tactic.Common

/-!
# Contents of file trees

A tree seen as a map from paths to the contents of files, and what becomes of that map when texts
are written into one directory, one after the other. The writes do not get into each other's way: all
of them succeed if each of them would succeed alone. Of several under one name the last one counts.

## Main definitions

* `FileTree.contents?`: the contents of the file at a path.
* `FileTree.deposit`: writes a text under a name into a directory, which is made if it is missing.
* `FileTree.Receives`: a directory takes a file of a name.

## Main results

* `FileTree.exists_depositAll_iff`: when a sequence of writes succeeds.
* `FileTree.contents?_depositAll`: the contents after a sequence of writes.
-/

namespace TypeGuard

theorem toList_loop_eq (bytes : ByteArray) (i : Nat) (read : List UInt8) :
    ByteArray.toList.loop bytes i read = read.reverse ++ bytes.data.toList.drop i := by
  fun_induction ByteArray.toList.loop bytes i read with
  | case1 i read more ih =>
    have more : i < bytes.data.toList.length := more
    rw [ih, List.drop_eq_getElem_cons more, List.reverse_cons, List.append_assoc]
    simp_all [ByteArray.get!]
  | case2 i read done =>
    have done : bytes.data.toList.length ≤ i := Nat.le_of_not_lt done
    rw [List.drop_of_length_le done, List.append_nil]

/-- The bytes of a text determine it. -/
theorem toUTF8_toList_inj {s t : String} : s.toUTF8.toList = t.toUTF8.toList ↔ s = t := by
  unfold ByteArray.toList
  rw [toList_loop_eq, toList_loop_eq]
  simp only [List.reverse_nil, List.nil_append, List.drop_zero, Array.toList_inj]
  rw [← ByteArray.ext_iff]
  exact String.toByteArray_inj

namespace Path

theorem child_inj {d : Path} {m n : String} : d.child m = d.child n ↔ m = n := by
  simp [Path.child]

theorem child_ne_self (d : Path) (name : String) : d ≠ d.child name := by
  intro h
  have := congrArg (·.parts.length) h
  simp [Path.child] at this

theorem not_isBelow_child (d : Path) (m n : String) : (d.child n).isBelow (d.child m) = false := by
  simp [Path.isBelow, Path.child]

end Path

namespace FileTree

/-- The contents of the file at a path. -/
def contents? (t : FileTree) (p : Path) : Option (List UInt8) :=
  match t.lookup p with
  | some (.file bytes) => some bytes
  | _ => none

/-! ## Setting what is at a path -/

theorem find?_put (t : FileTree) (p q : Path) (entry : FileEntry) :
    (t.put p entry).entries.find? (·.1 == q) =
      if q = p then some (p, entry) else t.entries.find? (·.1 == q) := by
  unfold put
  split
  next listed =>
    have replaced (entries : List (Path × FileEntry)) :
        (entries.map fun e => if e.1 == p then (p, entry) else e).find? (·.1 == q) =
          if q = p then (entries.find? (·.1 == p)).map fun _ => (p, entry)
          else entries.find? (·.1 == q) := by
      induction entries with
      | nil => simp
      | cons e entries ih => grind
    have found : (t.entries.find? (·.1 == p)).isSome := by simpa [List.any_eq] using listed
    obtain ⟨e, found⟩ := Option.isSome_iff_exists.1 found
    rw [replaced, found, Option.map_some]
  next unlisted =>
    grind

theorem lookup_put_self (t : FileTree) (p : Path) (entry : FileEntry) :
    (t.put p entry).lookup p = some entry := by
  rw [lookup, find?_put, if_pos rfl]

/-- Something lies below a directory after a path has been set if it did before, or if the path
does. -/
theorem any_isBelow_put (t : FileTree) (p q : Path) (entry : FileEntry) :
    (t.put p entry).entries.any (·.1.isBelow q) =
      (t.entries.any (·.1.isBelow q) || p.isBelow q) := by
  unfold put
  split
  next listed =>
    have same (entries : List (Path × FileEntry)) :
        (entries.map fun e => if e.1 == p then (p, entry) else e).any (·.1.isBelow q) =
          entries.any (·.1.isBelow q) := by
      induction entries with
      | nil => rfl
      | cons e entries ih => grind
    rw [same, Bool.eq_iff_iff]
    simp only [List.any_eq_true, Bool.or_eq_true, beq_iff_eq] at listed ⊢
    grind
  next unlisted => simp

theorem directory_put (t : FileTree) (p : Path) (entry : FileEntry) :
    (t.put p entry).directory = t.directory := by
  unfold put
  split <;> rfl

theorem home_put (t : FileTree) (p : Path) (entry : FileEntry) :
    (t.put p entry).home = t.home := by
  unfold put
  split <;> rfl

/-- Elsewhere nothing changes, except that a path that was nothing becomes a directory if it lies
above. -/
theorem lookup_put_of_ne {t : FileTree} {p q : Path} {entry : FileEntry} (h : q ≠ p) :
    (t.put p entry).lookup q = (t.lookup q).or (if p.isBelow q then some .directory else none) := by
  unfold lookup
  rw [find?_put, if_neg h, directory_put, any_isBelow_put]
  cases t.entries.find? (·.1 == q) with
  | some e => rfl
  | none => grind

theorem contents?_put (t : FileTree) (p q : Path) (bytes : List UInt8) :
    (t.put p (.file bytes)).contents? q = if q = p then some bytes else t.contents? q := by
  unfold contents?
  split_ifs with h
  · rw [h, lookup_put_self]
  · rw [lookup_put_of_ne h]
    cases t.lookup q <;> grind

/-! ## Making a directory -/

/-- A directory that is there stays as it is, and one that is made was nothing before. -/
theorem makeDirectory_cases {t made : FileTree} {d : Path} (h : t.makeDirectory d = .ok made) :
    (t.lookup d = some .directory ∧ made = t) ∨
      (t.lookup d = none ∧ made = t.put d .directory) := by
  unfold makeDirectory at h
  split at h
  next present =>
    cases h
    exact .inl ⟨present, rfl⟩
  next => cases h
  next missing =>
    split at h
    next => cases h
    next =>
      split at h
      next => cases h
      next =>
        cases h
        exact .inr ⟨missing, rfl⟩

theorem makeDirectory_of_lookup {t : FileTree} {d : Path} (h : t.lookup d = some .directory) :
    t.makeDirectory d = .ok t := by
  rw [makeDirectory, h]

theorem lookup_makeDirectory {t made : FileTree} {d : Path} (h : t.makeDirectory d = .ok made) :
    made.lookup d = some .directory := by
  obtain ⟨present, rfl⟩ | ⟨_, rfl⟩ := makeDirectory_cases h
  · exact present
  · exact t.lookup_put_self d .directory

/-- To make a directory changes no file. -/
theorem contents?_makeDirectory {t made : FileTree} {d : Path} (h : t.makeDirectory d = .ok made)
    (p : Path) : made.contents? p = t.contents? p := by
  obtain ⟨_, rfl⟩ | ⟨missing, rfl⟩ := makeDirectory_cases h
  · rfl
  · unfold contents?
    by_cases here : p = d
    · rw [here, lookup_put_self, missing]
    · rw [lookup_put_of_ne here]
      cases t.lookup p <;> grind

/-! ## Writing into a directory -/

/-- Writes a text under a name into a directory, which is made if it is missing. -/
def deposit (t : FileTree) (d : Path) (name text : String) : Except FileError FileTree := do
  (← t.makeDirectory d).write (d.child name) text

/-- A directory is there or can be made, and takes a file of a name. -/
def Receives (t : FileTree) (d : Path) (name : String) : Prop :=
  ∃ made, t.makeDirectory d = .ok made ∧ made.lookup (d.child name) ≠ some .directory ∧
    ∀ part ∈ (d.child name).parts, ¬ Path.isTooLong part

theorem tooLong?_eq_none_iff {t : FileTree} {p : Path} :
    t.tooLong? p = none ↔ ∀ part ∈ p.parts, ¬ Path.isTooLong part := by
  simp [tooLong?]

theorem write_eq_ok_iff {t t' : FileTree} {p : Path} {text : String} :
    t.write p text = .ok t' ↔ t.lookup p ≠ some .directory ∧
      (∀ part ∈ p.parts, ¬ Path.isTooLong part) ∧ t.put p (.file text.toUTF8.toList) = t' := by
  rw [← tooLong?_eq_none_iff (t := t)]
  unfold write
  split
  next long => simp [long]
  next present _ => simp [present]
  next absent short =>
    have absent : t.lookup p ≠ some .directory := absent
    have short : t.tooLong? p = none := Option.eq_none_iff_forall_ne_some.2 short
    simp [absent, short]

theorem deposit_eq_ok_iff {t t' : FileTree} {d : Path} {name text : String} :
    t.deposit d name text = .ok t' ↔ t.Receives d name ∧ ∃ made, t.makeDirectory d = .ok made ∧
      made.put (d.child name) (.file text.toUTF8.toList) = t' := by
  unfold deposit Receives
  cases t.makeDirectory d with
  | error e => simp [bind, Except.bind]
  | ok made => simp [bind, Except.bind, write_eq_ok_iff, and_assoc]

theorem exists_deposit_iff {t : FileTree} {d : Path} {name : String} (text : String) :
    (∃ t', t.deposit d name text = .ok t') ↔ t.Receives d name := by
  constructor
  · rintro ⟨t', written⟩
    exact (deposit_eq_ok_iff.1 written).1
  · intro receives
    have ⟨made, done, _⟩ := receives
    exact ⟨_, deposit_eq_ok_iff.2 ⟨receives, made, done, rfl⟩⟩

theorem contents?_deposit {t t' : FileTree} {d : Path} {name text : String}
    (h : t.deposit d name text = .ok t') (p : Path) :
    t'.contents? p = if p = d.child name then some text.toUTF8.toList else t.contents? p := by
  obtain ⟨_, made, done, rfl⟩ := deposit_eq_ok_iff.1 h
  rw [contents?_put, contents?_makeDirectory done]

/-- To write changes neither the working directory nor the home directory. -/
theorem directory_home_deposit {t t' : FileTree} {d : Path} {name text : String}
    (h : t.deposit d name text = .ok t') : t'.directory = t.directory ∧ t'.home = t.home := by
  obtain ⟨_, made, done, rfl⟩ := deposit_eq_ok_iff.1 h
  rw [directory_put, home_put]
  obtain ⟨_, rfl⟩ | ⟨_, rfl⟩ := makeDirectory_cases done
  · exact ⟨rfl, rfl⟩
  · exact ⟨t.directory_put d .directory, t.home_put d .directory⟩

/-- What a directory takes does not change when a file is written into it. -/
theorem receives_of_deposit {t t' : FileTree} {d : Path} {name text : String}
    (h : t.deposit d name text = .ok t') (other : String) :
    t'.Receives d other ↔ t.Receives d other := by
  obtain ⟨⟨_, _, _, fits⟩, made, done, rfl⟩ := deposit_eq_ok_iff.1 h
  have again : (made.put (d.child name) (.file text.toUTF8.toList)).makeDirectory d
      = .ok (made.put (d.child name) (.file text.toUTF8.toList)) := by
    apply makeDirectory_of_lookup
    rw [lookup_put_of_ne (d.child_ne_self name), lookup_makeDirectory done]
    rfl
  unfold Receives
  simp only [again, done, Except.ok.injEq, exists_eq_left']
  -- The new file lies below no other child, so that it turns none of them into a directory.
  by_cases same : other = name
  · subst same
    simp_all [lookup_put_self]
  · have apart : d.child other ≠ d.child name := fun h => same (Path.child_inj.1 h)
    rw [lookup_put_of_ne apart, Path.not_isBelow_child, if_neg Bool.false_ne_true, Option.or_none]

/-! ## Sequences of writes -/

/-- Writes texts under names into a directory, one after the other. -/
def depositAll (d : Path) (t : FileTree) (writes : List (String × String)) :
    Except FileError FileTree :=
  writes.foldlM (fun t w => t.deposit d w.1 w.2) t

/-- The text that writes leave at a path: that of the last one that goes there. -/
def lastText? (d : Path) (writes : List (String × String)) (p : Path) : Option String :=
  (writes.reverse.find? (d.child ·.1 = p)).map (·.2)

theorem exists_depositAll_iff {d : Path} {t : FileTree} {writes : List (String × String)} :
    (∃ t', depositAll d t writes = .ok t') ↔ ∀ w ∈ writes, t.Receives d w.1 := by
  induction writes generalizing t with
  | nil => simp [depositAll, pure, Except.pure]
  | cons w writes ih =>
    unfold depositAll
    rw [List.foldlM_cons, List.forall_mem_cons, ← exists_deposit_iff w.2]
    cases first : t.deposit d w.1 w.2 with
    | error e => simp [bind, Except.bind]
    | ok mid =>
      simp only [Except.ok.injEq, exists_eq', true_and, ← receives_of_deposit first]
      exact ih

theorem contents?_depositAll {d : Path} {t t' : FileTree} {writes : List (String × String)}
    (h : depositAll d t writes = .ok t') (p : Path) :
    t'.contents? p = ((lastText? d writes p).map (·.toUTF8.toList)).or (t.contents? p) := by
  induction writes generalizing t with
  | nil =>
    cases h
    rfl
  | cons w writes ih =>
    unfold depositAll at h
    rw [List.foldlM_cons] at h
    cases first : t.deposit d w.1 w.2 with
    | error e =>
      rw [first] at h
      cases h
    | ok mid =>
      rw [first] at h
      rw [ih h, contents?_deposit first]
      unfold lastText?
      rw [List.reverse_cons, List.find?_append]
      cases writes.reverse.find? (d.child ·.1 = p) <;> grind

/-- All texts are still there after the writes if and only if those under one name are the same. -/
theorem contents?_depositAll_iff {d : Path} {t t' : FileTree} {writes : List (String × String)}
    (h : depositAll d t writes = .ok t') :
    (∀ w ∈ writes, t'.contents? (d.child w.1) = some w.2.toUTF8.toList) ↔
      ∀ v ∈ writes, ∀ w ∈ writes, v.1 = w.1 → v.2 = w.2 := by
  constructor
  · intro kept v hv w hw same
    have := kept v hv
    rw [same, kept w hw, Option.some_inj, toUTF8_toList_inj] at this
    exact this.symm
  · intro agree w hw
    rw [contents?_depositAll h, lastText?]
    cases found : writes.reverse.find? (d.child ·.1 = d.child w.1) with
    | none =>
      have := List.find?_eq_none.1 found w (List.mem_reverse.2 hw)
      simp at this
    | some last =>
      have goes : last.1 = w.1 := Path.child_inj.1 (by simpa using List.find?_some found)
      have member : last ∈ writes := List.mem_reverse.1 (List.mem_of_find?_eq_some found)
      rw [Option.map_some, Option.map_some, Option.some_or, agree last member w hw goes]

end FileTree

end TypeGuard
