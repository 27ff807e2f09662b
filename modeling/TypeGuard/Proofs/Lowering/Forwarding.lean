import TypeGuard.Lowering.Function
import TypeGuard.Proofs.Destructuring
import TypeGuard.Proofs.Surface.Trees

/-!
# Forwarding to the inner function

A function with a checked result calls an inner function with its own arguments, built again from
the names that its parameters have bound. The inner function binds these arguments to the same names
with the same values.

A rebuilt value need not be the argument it stands for: it has only the parts that the pattern
binds, and the defaulted ones in the place of undefined ones. It is bound in the same way all the
same, since a part that is still undefined has a default that came out undefined before. A rest
parameter is spread again, so it must not be matched as an object; one that is read is a name.
-/

namespace TypeGuard

namespace Pattern

mutual

/-- No object pattern has a key twice. -/
def KeysDistinct : Pattern → Prop
  | .ident _ => True
  | .default target _ => KeysDistinct target
  | .object fields _ => (fields.map (·.key)).Nodup ∧ FieldsDistinct fields
  | .array elements _ => ElementsDistinct elements
  | .stray _ => True

def FieldsDistinct : List (PatternField Pattern) → Prop
  | [] => True
  | ⟨_, value⟩ :: fields => KeysDistinct value ∧ FieldsDistinct fields

def ElementsDistinct : List (Option Pattern) → Prop
  | [] => True
  | none :: elements => ElementsDistinct elements
  | some element :: elements => KeysDistinct element ∧ ElementsDistinct elements

end

/-- An object is matched, apart from defaults. -/
def isObject : Pattern → Bool
  | .object _ _ => true
  | .default target _ => isObject target
  | _ => false

theorem rebuild_ne_spread : ∀ (p : Pattern) (e : Expr), p.rebuild ≠ .spread e
  | .default target _, e => rebuild_ne_spread target e
  | .ident _, _ | .object _ _, _ | .array _ _, _ | .stray _, _ => by simp [rebuild]

end Pattern

/-- The environment has all the given bindings. -/
def Env.Contains (s bound : Env) : Prop := ∀ b ∈ bound, s.lookup b.1 = some b.2

theorem Env.contains_append {s bound bound' : Env} :
    s.Contains (bound ++ bound') ↔ s.Contains bound ∧ s.Contains bound' :=
  List.forall_mem_append

theorem Env.contains_self {s : Env} (distinct : (s.map Prod.fst).Nodup) : s.Contains s := by
  induction s with
  | nil => simp [Env.Contains]
  | cons b s ih =>
    obtain ⟨fresh, distinct⟩ := List.nodup_cons.1 distinct
    refine List.forall_mem_cons.2 ⟨List.lookup_cons_self, fun b' member => ?_⟩
    have other : b'.1 ≠ b.1 := fun same => fresh (same ▸ List.mem_map_of_mem member)
    rw [List.lookup_cons, beq_false_of_ne other]
    exact ih distinct b' member

section
variable {host : Host}

theorem Value.orDefault_of_ne {env : Env} {default : Option Expr} {v : Value}
    (defined : v ≠ .undefined) : v.orDefault host env default = some v := by
  cases v with
  | undefined => exact absurd rfl defined
  | _ => rfl

theorem Value.orDefault_none {env : Env} (v : Value) : v.orDefault host env none = some v := by
  cases v <;> rfl

theorem Value.own_without_mem {keys : List String} {key : String} (member : key ∈ keys)
    (v : Value) : (v.without host keys).own host key = none :=
  if_pos member

theorem Value.own_without_not_mem {keys : List String} {key : String} (other : key ∉ keys)
    (v : Value) : (v.without host keys).own host key = v.own host key :=
  if_neg other

theorem Expr.value_ident {s : Env} {name : String} {v : Value} (h : s.lookup name = some v) :
    Expr.value host s (.ident name) = some v := by
  simp [Expr.value, h]

theorem Expr.values_cons {s : Env} {e : Expr} {es : List Expr} {v : Value} {vs : List Value}
    (single : ∀ e', e ≠ .spread e') (first : Expr.value host s e = some v)
    (others : Expr.values host s es = some vs) :
    Expr.values host s (e :: es) = some (v :: vs) := by
  rw [Expr.values, first, others]
  · rfl
  · exact single

theorem Expr.values_spread {s : Env} {e : Expr} {vs : List Value}
    (h : Expr.value host s e = some (.array vs)) :
    Expr.values host s [.spread e] = some vs := by
  simp [Expr.values, h, Value.elements]

theorem Expr.values_eq_none_of_spread {s : Env} {e : Expr} {es : List Expr}
    (member : .spread e ∈ es) (h : ∀ v, Expr.value host s e = some v → v.elements host = none) :
    Expr.values host s es = none := by
  induction es with
  | nil => simp at member
  | cons first es ih =>
    obtain rfl | later := List.mem_cons.1 member
    · cases evaluated : Expr.value host s e with
      | none => simp [Expr.values, evaluated]
      | some v => simp [Expr.values, evaluated, h v evaluated]
    · cases first <;> simp [Expr.values, ih later]

theorem Expr.value_array {s : Env} {es : List Expr} {vs : List Value}
    (h : Expr.values host s es = some vs) :
    Expr.value host s (.array es) = some (.array vs) := by
  simp [Expr.value, h]

theorem Expr.value_object {s : Env} {entries : List (Entry Expr)}
    {properties : String → Option Value} (h : Expr.properties host s entries = some properties) :
    Expr.value host s (.object entries) = some (.object properties) := by
  simp [Expr.value, h]

/-! ## Patterns -/

variable (host : Host)

/-- Wherever the new bindings hold, the value that is rebuilt from them is bound as `v` was. It is
`v` itself or is not undefined, so a default around the pattern does not come in where it did not
before. -/
def Pattern.Rebinds (p : Pattern) (v : Value) (env bound : Env) : Prop :=
  ∀ s : Env, s.Contains bound → ∃ v', Expr.value host s p.rebuild = some v' ∧
    (v' = v ∨ v' ≠ .undefined ∧ p.bind host v' env = some (env ++ bound)) ∧
    (p.isObject = false → ∀ vs, v = .array vs → ∃ ws, v' = .array ws)

/-- Wherever the new bindings hold, the fields are rebuilt as properties that later ones do not
override, and every object with these properties is bound in the same way. -/
def Pattern.FieldsRebind (fields : List (PatternField Pattern)) (env bound : Env) : Prop :=
  ∀ (s : Env) (more : List (Entry Expr)) (later : String → Option Value), s.Contains bound →
    Expr.properties host s more = some later →
    (∀ key ∈ fields.map (·.key), later key = none) →
    ∃ properties, Expr.properties host s (rebuildFields fields ++ more) = some properties ∧
      (∀ key, key ∉ fields.map (·.key) → properties key = later key) ∧
      ∀ o : String → Option Value, (∀ key ∈ fields.map (·.key), o key = properties key) →
        bindFields host fields (.object o) env = some (env ++ bound)

/-- Wherever the new bindings hold, the elements are rebuilt one for one, and every list that starts
with them is bound in the same way. -/
def Pattern.ElementsRebind (elements : List (Option Pattern)) (env bound : Env) : Prop :=
  ∀ s : Env, s.Contains bound → ∃ ws : List Value, ws.length = elements.length ∧
    (∀ more tail, Expr.values host s more = some tail →
      Expr.values host s (rebuildElements elements ++ more) = some (ws ++ tail)) ∧
    ∀ tail, bindElements host elements (ws ++ tail) env = some (env ++ bound)

namespace Pattern

variable {host}

theorem Rebinds.value {p : Pattern} {v : Value} {env bound s : Env}
    (h : p.Rebinds host v env bound) (bound_eq : p.bind host v env = some (env ++ bound))
    (contains : s.Contains bound) :
    ∃ v', Expr.value host s p.rebuild = some v' ∧ p.bind host v' env = some (env ++ bound) := by
  obtain ⟨v', evaluated, rfl | ⟨-, again⟩, -⟩ := h s contains
  · exact ⟨v', evaluated, bound_eq⟩
  · exact ⟨v', evaluated, again⟩

theorem Rebinds.default {target : Pattern} {e : Expr} {v w : Value} {env bound : Env}
    (settled : v.orDefault host env (some e) = some w)
    (h : target.bind host w env = some (env ++ bound)) (rebinds : target.Rebinds host w env bound) :
    (Pattern.default target e).Rebinds host v env bound := by
  have through : ∀ v', v' ≠ .undefined → target.bind host v' env = some (env ++ bound) →
      (Pattern.default target e).bind host v' env = some (env ++ bound) := by
    intro v' defined again
    simpa [bind, Value.orDefault_of_ne defined] using again
  have same : v ≠ .undefined → w = v := by
    intro defined
    simpa [Value.orDefault_of_ne defined] using settled.symm
  intro s contains
  obtain ⟨v', evaluated, again, isArray⟩ := rebinds s contains
  refine ⟨v', evaluated, ?_, fun other vs array => ?_⟩
  · obtain rfl | ⟨defined, again⟩ := again
    · by_cases undefined : v = .undefined
      · by_cases still : v' = .undefined
        · exact .inl (still.trans undefined.symm)
        · exact .inr ⟨still, through v' still h⟩
      · exact .inl (same undefined)
    · exact .inr ⟨defined, through v' defined again⟩
  · exact isArray other vs ((same (by simp [array])).trans array)

theorem FieldsRebind.object {fields : List (PatternField Pattern)} {rest : Option String}
    {v : Value} {env bound : Env} (rebinds : FieldsRebind host fields env bound) :
    (Pattern.object fields rest).Rebinds host v env
      (bound ++ rest.toList.map fun name => (name, v.without host (fields.map (·.key)))) := by
  intro s contains
  obtain ⟨held, last⟩ := Env.contains_append.1 contains
  cases rest with
  | none =>
    obtain ⟨properties, evaluated, -, again⟩ :=
      rebinds s [] (fun _ => none) held rfl fun _ _ => rfl
    refine ⟨.object properties, Expr.value_object evaluated, .inr ⟨by simp, ?_⟩, by simp [isObject]⟩
    simp [bind, Value.isNil, again properties fun _ _ => rfl]
  | some name =>
    have found : s.lookup name = some (v.without host (fields.map (·.key))) :=
      last (name, _) (List.mem_singleton_self _)
    have evaluatedRest : Expr.properties host s [.spread (.ident name)]
        = some fun key => (v.without host (fields.map (·.key))).own host key := by
      simp [Expr.properties, Expr.value_ident found]
    obtain ⟨properties, evaluated, kept, again⟩ := rebinds s _ _ held evaluatedRest
      fun key member => Value.own_without_mem member v
    -- The rest is spread behind the fields, so it is what is left when their keys are taken out.
    have without : (Value.object properties).without host (fields.map (·.key))
        = v.without host (fields.map (·.key)) := by
      refine congrArg Value.object (funext fun key => ?_)
      split
      · rfl
      next other => exact (kept key other).trans (Value.own_without_not_mem other v)
    refine ⟨.object properties, Expr.value_object evaluated, .inr ⟨by simp, ?_⟩, by simp [isObject]⟩
    simp [bind, Value.isNil, again properties fun _ _ => rfl, without]

theorem ElementsRebind.array {elements : List (Option Pattern)} {rest : Option String}
    {v : Value} {env bound : Env} (rebinds : ElementsRebind host elements env bound)
    (others : List Value) :
    (Pattern.array elements rest).Rebinds host v env
      (bound ++ rest.toList.map fun name => (name, .array others)) := by
  intro s contains
  obtain ⟨held, last⟩ := Env.contains_append.1 contains
  obtain ⟨ws, length, evaluated, again⟩ := rebinds s held
  cases rest with
  | none =>
    refine ⟨.array (ws ++ []), Expr.value_array (evaluated [] [] rfl), .inr ⟨by simp, ?_⟩,
      fun _ _ _ => ⟨_, rfl⟩⟩
    simp only [bind, Value.elements, Option.bind_eq_bind, Option.bind_some, again]
    simp
  | some name =>
    have found : s.lookup name = some (.array others) :=
      last (name, _) (List.mem_singleton_self _)
    have evaluatedRest : Expr.values host s [.spread (.ident name)] = some others :=
      Expr.values_spread (Expr.value_ident found)
    have dropped : (ws ++ others).drop elements.length = others := by
      rw [← length, List.drop_left]
    refine ⟨.array (ws ++ others), Expr.value_array (evaluated _ _ evaluatedRest),
      .inr ⟨by simp, ?_⟩, fun _ _ _ => ⟨_, rfl⟩⟩
    simp [bind, Value.elements, again, dropped]

theorem FieldsRebind.cons {key : String} {value : Pattern} {fields : List (PatternField Pattern)}
    {v : Value} {env bound bound' : Env} (fresh : key ∉ fields.map (·.key))
    (h : value.bind host v env = some (env ++ bound)) (first : value.Rebinds host v env bound)
    (others : FieldsRebind host fields (env ++ bound) bound') :
    FieldsRebind host (⟨key, value⟩ :: fields) env (bound ++ bound') := by
  intro s more later contains evaluatedMore free
  obtain ⟨held, held'⟩ := Env.contains_append.1 contains
  obtain ⟨w, evaluatedFirst, againFirst⟩ := first.value h held
  obtain ⟨properties, evaluated, kept, again⟩ := others s more later held' evaluatedMore
    fun key member => free key (List.mem_cons_of_mem _ member)
  refine ⟨fun k => (properties k).or (if k = key then some w else none), ?_, ?_, ?_⟩
  · simp [rebuildFields, Expr.properties, evaluatedFirst, evaluated]
  · intro k other
    obtain ⟨different, other⟩ := not_or.1 fun h => other (List.mem_cons.2 h)
    simp [kept k other, different]
  · intro o agrees
    have own : o key = some w := by
      simp [agrees key List.mem_cons_self, kept key fresh, free key List.mem_cons_self]
    have others : ∀ k ∈ fields.map (·.key), o k = properties k := by
      intro k member
      have different : k ≠ key := fun same => fresh (same ▸ member)
      simp [agrees k (List.mem_cons_of_mem _ member), different]
    simp [bindFields, Value.get, own, againFirst, again o others]

theorem ElementsRebind.hole {elements : List (Option Pattern)} {env bound : Env}
    (others : ElementsRebind host elements env bound) :
    ElementsRebind host (none :: elements) env bound := by
  intro s contains
  obtain ⟨ws, length, evaluated, again⟩ := others s contains
  obtain ⟨w, evaluatedHole⟩ : ∃ w, Expr.value host s (.ident "undefined") = some w := by
    cases found : s.lookup "undefined" <;> simp [Expr.value, found]
  refine ⟨w :: ws, by simp [length], fun more tail evaluatedMore => ?_, fun tail => ?_⟩
  · exact Expr.values_cons (by simp) evaluatedHole (evaluated more tail evaluatedMore)
  · simpa [bindElements] using again tail

theorem ElementsRebind.cons {element : Pattern} {elements : List (Option Pattern)} {v : Value}
    {env bound bound' : Env} (h : element.bind host v env = some (env ++ bound))
    (first : element.Rebinds host v env bound)
    (others : ElementsRebind host elements (env ++ bound) bound') :
    ElementsRebind host (some element :: elements) env (bound ++ bound') := by
  intro s contains
  obtain ⟨held, held'⟩ := Env.contains_append.1 contains
  obtain ⟨w, evaluatedFirst, againFirst⟩ := first.value h held
  obtain ⟨ws, length, evaluated, again⟩ := others s held'
  refine ⟨w :: ws, by simp [length], fun more tail evaluatedMore => ?_, fun tail => ?_⟩
  · exact Expr.values_cons (rebuild_ne_spread element) evaluatedFirst
      (evaluated more tail evaluatedMore)
  · simp [bindElements, againFirst, again tail]

-- Each pattern appends bindings of its own names, from which its value can be built again.
mutual

theorem bind_rebuild : ∀ (p : Pattern) {v : Value} {env env' : Env}, p.KeysDistinct →
    p.bind host v env = some env' →
    ∃ bound, env' = env ++ bound ∧ bound.map Prod.fst = p.boundNames ∧ p.Rebinds host v env bound
  | .ident name, v, env, env', _, h => by
    refine ⟨[(name, v)], by simpa [bind] using h.symm, rfl, fun s contains => ?_⟩
    have found : s.lookup name = some v := contains (name, v) (List.mem_singleton_self _)
    exact ⟨v, Expr.value_ident found, .inl rfl, fun _ vs array => ⟨vs, array⟩⟩
  | .default target e, v, env, env', distinct, h => by
    obtain ⟨w, settled, h⟩ := Option.bind_eq_some_iff.1 h
    obtain ⟨bound, rfl, names, rebinds⟩ := bind_rebuild target distinct h
    exact ⟨bound, rfl, names, rebinds.default settled h⟩
  | .object fields rest, v, env, env', distinct, h => by
    rw [bind] at h
    split at h
    · exact absurd h (by simp)
    · obtain ⟨inner, h, last⟩ := Option.bind_eq_some_iff.1 h
      obtain ⟨bound, rfl, names, rebinds⟩ := bindFields_rebuild fields distinct.1 distinct.2 h
      refine ⟨_, ?_, ?_, rebinds.object⟩
      · rw [← List.append_assoc]
        exact (Option.some.inj last).symm
      · simp [boundNames, names, Function.comp_def]
  | .array elements rest, v, env, env', distinct, h => by
    rw [bind] at h
    obtain ⟨vs, -, h⟩ := Option.bind_eq_some_iff.1 h
    obtain ⟨inner, h, last⟩ := Option.bind_eq_some_iff.1 h
    obtain ⟨bound, rfl, names, rebinds⟩ := bindElements_rebuild elements distinct h
    refine ⟨_, ?_, ?_, rebinds.array (vs.drop elements.length)⟩
    · rw [← List.append_assoc]
      exact (Option.some.inj last).symm
    · simp [boundNames, names, Function.comp_def]
  | .stray _, _, _, _, _, h => absurd h (by simp [bind])
termination_by structural p => p

theorem bindFields_rebuild : ∀ (fields : List (PatternField Pattern)) {v : Value} {env env' : Env},
    (fields.map (·.key)).Nodup → FieldsDistinct fields → bindFields host fields v env = some env' →
    ∃ bound, env' = env ++ bound ∧ bound.map Prod.fst = fieldNames fields ∧
      FieldsRebind host fields env bound
  | [], v, env, env', _, _, h => by
    refine ⟨[], by simpa [bindFields] using h.symm, rfl, fun s more later _ evaluated _ => ?_⟩
    exact ⟨later, evaluated, fun _ _ => rfl, fun o _ => by simp [bindFields]⟩
  | ⟨key, value⟩ :: fields, v, env, env', nodup, distinct, h => by
    obtain ⟨fresh, nodup⟩ := List.nodup_cons.1 nodup
    obtain ⟨inner, first, others⟩ := Option.bind_eq_some_iff.1 h
    obtain ⟨bound, rfl, names, rebinds⟩ := bind_rebuild value distinct.1 first
    obtain ⟨bound', rfl, names', rebinds'⟩ := bindFields_rebuild fields nodup distinct.2 others
    exact ⟨bound ++ bound', List.append_assoc .., by simp [fieldNames, names, names'],
      rebinds'.cons fresh first rebinds⟩
termination_by structural fields => fields

theorem bindElements_rebuild : ∀ (elements : List (Option Pattern)) {vs : List Value}
    {env env' : Env}, ElementsDistinct elements → bindElements host elements vs env = some env' →
    ∃ bound, env' = env ++ bound ∧ bound.map Prod.fst = elementNames elements ∧
      ElementsRebind host elements env bound
  | [], vs, env, env', _, h => by
    refine ⟨[], by simpa [bindElements] using h.symm, rfl, fun s _ => ?_⟩
    exact ⟨[], rfl, fun _ _ evaluated => evaluated, fun _ => by simp [bindElements]⟩
  | none :: elements, vs, env, env', distinct, h => by
    obtain ⟨bound, rfl, names, rebinds⟩ := bindElements_rebuild elements distinct h
    exact ⟨bound, rfl, names, rebinds.hole⟩
  | some element :: elements, vs, env, env', distinct, h => by
    obtain ⟨inner, first, others⟩ := Option.bind_eq_some_iff.1 h
    obtain ⟨bound, rfl, names, rebinds⟩ := bind_rebuild element distinct.1 first
    obtain ⟨bound', rfl, names', rebinds'⟩ := bindElements_rebuild elements distinct.2 others
    exact ⟨bound ++ bound', List.append_assoc .., by simp [elementNames, names, names'],
      rebinds'.cons first rebinds⟩
termination_by structural elements => elements

end

end Pattern

/-! ## Parameters -/

variable {host}

/-- What a parameter list has to satisfy: its names are distinct, no object pattern has a key twice,
and a rest parameter is the last one and is not matched as an object. -/
structure Signature.WellFormed (signature : Signature Pattern Expr) : Prop where
  names : signature.boundNames.Nodup
  keys : ∀ param ∈ signature.params, param.binding.KeysDistinct
  last : ∀ param ∈ signature.params.dropLast, param.rest = false
  sequence : ∀ param ∈ signature.params, param.rest = true → param.binding.isObject = false

/-- A rest parameter that is read is a name. -/
theorem Param.ofForm_rest {file : String} : ∀ (form : Form) {param : Param Pattern Expr},
    Param.ofForm file form = .ok param → param.rest = true → ∃ name, param.binding = .ident name
  | .symbol name, param, h, _ => by
    simp only [Param.ofForm, Except.ok.injEq] at h
    exact ⟨name, h ▸ rfl⟩
  | .list (head :: target :: more) position, param, h, isRest => by
    unfold Param.ofForm at h
    dsimp only at h
    split at h
    · cases h
    · simp only [bind_eq_ok_iff, pure_eq_ok_iff] at h
      obtain ⟨inner, read, value, -, rfl⟩ := h
      obtain ⟨name, named⟩ := Param.ofForm_rest target read isRest
      exact ⟨name, named⟩
    · split at h
      all_goals
        simp only [bind_eq_ok_iff, pure_eq_ok_iff] at h
        grind [Position.refuse, bind_eq_ok_iff, pure_eq_ok_iff]
  | .list [] _, _, h, _ | .list [_] _, _, h, _ => by simp [Param.ofForm, Position.refuse] at h
  | .text _, _, h, _ | .number _, _, h, _ | .quoted _, _, h, _ | .brackets _, _, h, _ => by
    simp [Param.ofForm, Form.refuse] at h

/-- The last condition on a parameter list holds of every list that is read. -/
theorem Param.ofForms_sequence {file : String} {forms : List Form}
    {params : List (Param Pattern Expr)} (h : Param.ofForms file forms = .ok params) :
    ∀ param ∈ params, param.rest = true → param.binding.isObject = false := by
  induction forms generalizing params with
  | nil =>
    obtain rfl : [] = params := by simpa [Param.ofForms] using h
    simp
  | cons form forms ih =>
    simp only [Param.ofForms, bind_eq_ok_iff, pure_eq_ok_iff] at h
    obtain ⟨param, read, params, others, rfl⟩ := h
    refine List.forall_mem_cons.2 ⟨fun isRest => ?_, ih others⟩
    obtain ⟨name, named⟩ := Param.ofForm_rest form read isRest
    simp [named, Pattern.isObject]

/-- A pattern that matches objects is rebuilt as an object. -/
theorem Pattern.value_rebuild_of_isObject (p : Pattern) {s : Env} {v : Value}
    (object : p.isObject = true) (h : Expr.value host s p.rebuild = some v) :
    ∃ properties, v = .object properties := by
  induction p using Pattern.isObject.induct with
  | case1 fields rest =>
    obtain ⟨properties, -, rebuilt⟩ := Option.bind_eq_some_iff.1 h
    exact ⟨properties, (Option.some.inj rebuilt).symm⟩
  | case2 target value ih => exact ih object h
  | case3 p notObject notDefault => simp [Pattern.isObject] at object

namespace Instrument

variable {param : Param Pattern Expr} {params : List (Param Pattern Expr)} {env bound : Env}

theorem bindParams_forwarded_rest {args : List Value} (isRest : param.rest = true)
    (sequence : param.binding.isObject = false)
    (h : param.binding.bind host (.array args) env = some (env ++ bound))
    (rebinds : param.binding.Rebinds host (.array args) env bound) {s : Env}
    (contains : s.Contains bound) :
    ∃ args', Expr.values host s (forwarded [param]) = some args' ∧
      bindParams host (innerParams [param]) args' env = some (env ++ bound) := by
  obtain ⟨v, evaluated, again, isArray⟩ := rebinds s contains
  obtain ⟨ws, rfl⟩ := isArray sequence args rfl
  have bound_eq : param.binding.bind host (.array ws) env = some (env ++ bound) := by
    obtain same | ⟨-, again⟩ := again
    · exact same ▸ h
    · exact again
  refine ⟨ws, ?_, ?_⟩
  · simpa [forwarded, isRest] using Expr.values_spread evaluated
  · simp [innerParams, bindParams, isRest, bound_eq]

theorem bindParams_forwarded_cons {v : Value} {bound' s : Env} (single : param.rest = false)
    (h : param.binding.bind host v env = some (env ++ bound))
    (rebinds : param.binding.Rebinds host v env bound) (contains : s.Contains bound)
    (others : ∃ args, Expr.values host s (forwarded params) = some args ∧
      bindParams host (innerParams params) args (env ++ bound) = some (env ++ bound ++ bound')) :
    ∃ args, Expr.values host s (forwarded (param :: params)) = some args ∧
      bindParams host (innerParams (param :: params)) args env
        = some (env ++ (bound ++ bound')) := by
  obtain ⟨w, evaluatedFirst, againFirst⟩ := rebinds.value h contains
  obtain ⟨args, evaluated, again⟩ := others
  refine ⟨w :: args, ?_, ?_⟩
  · simpa [forwarded, single] using
      Expr.values_cons (Pattern.rebuild_ne_spread _) evaluatedFirst evaluated
  · simpa [innerParams, bindParams, single, Value.orDefault_none, againFirst] using again

/-- Each list of parameters appends bindings of its own names, from which its arguments can be built
again. -/
theorem bindParams_forwarded {args : List Value} {env' : Env}
    (keys : ∀ param ∈ params, param.binding.KeysDistinct)
    (last : ∀ param ∈ params.dropLast, param.rest = false)
    (sequence : ∀ param ∈ params, param.rest = true → param.binding.isObject = false)
    (h : bindParams host params args env = some env') :
    ∃ bound, env' = env ++ bound ∧
      bound.map Prod.fst = params.flatMap (fun param => param.binding.boundNames) ∧
      ∀ s : Env, s.Contains bound → ∃ args', Expr.values host s (forwarded params) = some args' ∧
        bindParams host (innerParams params) args' env = some (env ++ bound) := by
  induction params generalizing args env with
  | nil =>
    refine ⟨[], by simpa [bindParams] using h.symm, rfl, fun s _ => ⟨[], rfl, ?_⟩⟩
    simp [innerParams, bindParams]
  | cons param params ih =>
    obtain ⟨key, keys⟩ := List.forall_mem_cons.1 keys
    obtain ⟨array, sequence⟩ := List.forall_mem_cons.1 sequence
    rw [bindParams] at h
    split at h
    next isRest =>
      -- No parameter follows, since a rest parameter is the last one.
      obtain rfl : params = [] := by
        cases params with
        | nil => rfl
        | cons next params => simp [isRest] at last
      obtain ⟨inner, first, h⟩ := Option.bind_eq_some_iff.1 h
      obtain rfl : inner = env' := by simpa [bindParams] using h
      obtain ⟨bound, rfl, names, rebinds⟩ := Pattern.bind_rebuild param.binding key first
      exact ⟨bound, rfl, by simpa using names, fun s contains =>
        bindParams_forwarded_rest isRest (array isRest) first rebinds contains⟩
    next single =>
      have last : ∀ param ∈ params.dropLast, param.rest = false := by
        cases params with
        | nil => simp
        | cons next params => exact (List.forall_mem_cons.1 last).2
      obtain ⟨v, -, h⟩ := Option.bind_eq_some_iff.1 h
      obtain ⟨inner, first, h⟩ := Option.bind_eq_some_iff.1 h
      obtain ⟨bound, rfl, names, rebinds⟩ := Pattern.bind_rebuild param.binding key first
      obtain ⟨bound', rfl, names', others⟩ := ih keys last sequence h
      refine ⟨bound ++ bound', List.append_assoc .., by simp [names, names'], fun s contains => ?_⟩
      obtain ⟨held, held'⟩ := Env.contains_append.1 contains
      exact bindParams_forwarded_cons (by simpa using single) first rebinds held (others s held')

/-- Where objects are not iterated, a rest parameter that is matched as an object is never
forwarded. -/
theorem values_forwarded_of_isObject
    (plain : ∀ properties, host.elements (.object properties) = none)
    (member : param ∈ params) (isRest : param.rest = true)
    (object : param.binding.isObject = true) (s : Env) :
    Expr.values host s (forwarded params) = none := by
  refine Expr.values_eq_none_of_spread (e := param.binding.rebuild) ?_ fun v evaluated => ?_
  · exact List.mem_map.2 ⟨param, member, if_pos isRest⟩
  · obtain ⟨properties, rfl⟩ := param.binding.value_rebuild_of_isObject object evaluated
    exact plain properties

end Instrument

/-- The inner function binds what it is called with as the outer function bound its arguments. -/
theorem Signature.bindParams_innerParams {signature : Signature Pattern Expr}
    (wellFormed : signature.WellFormed) {args : List Value} {s : Env}
    (h : bindParams host signature.params args [] = some s) :
    ∃ args', Expr.values host s (Instrument.forwarded signature.params) = some args' ∧
      bindParams host (Instrument.innerParams signature.params) args' [] = some s := by
  obtain ⟨bound, bound_eq, names, again⟩ := Instrument.bindParams_forwarded wellFormed.keys
    wellFormed.last wellFormed.sequence h
  obtain rfl : s = bound := bound_eq
  have distinct : (s.map Prod.fst).Nodup := names ▸ wellFormed.names
  exact again s (Env.contains_self distinct)

end

/-- A host in which only objects have properties and only arrays are iterated, and in which every
default is undefined. -/
def Host.bare : Host where
  property _ _ := .undefined
  own _ _ := none
  elements _ := none
  evaluate _ _ := some .undefined

/-- The parameters `{a: [, x, y = e, ...ys], ...others} = d, ...zs`. -/
def nestedSignature : Signature Pattern Expr where
  params :=
    [{ binding := .object
        [⟨"a", .array [none, some (.ident "x"), some (.default (.ident "y") (.raw "e"))]
          (some "ys")⟩]
        (some "others")
       default := some (.raw "d") },
     { binding := .ident "zs", rest := true }]

theorem nestedSignature_wellFormed : nestedSignature.WellFormed where
  names := by decide
  keys := by simp [nestedSignature, Pattern.KeysDistinct, Pattern.FieldsDistinct,
    Pattern.ElementsDistinct]
  last := by decide
  sequence := by decide

/-- The arguments `{a: [null, "one"], b: true}, undefined, "two"`. -/
def nestedArguments : List Value :=
  [.object fun key =>
    if key = "a" then some (.array [.null, .string "one"])
    else if key = "b" then some (.boolean true) else none,
   .undefined, .string "two"]

theorem nestedSignature_bindParams_innerParams :
    nestedSignature.WellFormed ∧
    ∃ s, bindParams Host.bare nestedSignature.params nestedArguments [] = some s ∧
      s.map Prod.fst = ["x", "y", "ys", "others", "zs"] ∧
      ∃ args, Expr.values Host.bare s (Instrument.forwarded nestedSignature.params) = some args ∧
        bindParams Host.bare (Instrument.innerParams nestedSignature.params) args [] = some s := by
  have h : bindParams Host.bare nestedSignature.params nestedArguments [] = some _ := rfl
  exact ⟨nestedSignature_wellFormed, _, h, rfl,
    Signature.bindParams_innerParams nestedSignature_wellFormed h⟩

/-- The parameter `...{0: first}`. -/
def objectRest : Signature Pattern Expr where
  params := [{ binding := .object [⟨"0", .ident "first"⟩] none, rest := true }]

/-- A host in which an array has its first element as a property, and only arrays are iterated. -/
def Host.indexed : Host where
  __ := Host.bare
  property v key :=
    if key = "0" then ((v.elements Host.bare).getD []).headD .undefined else .undefined

/-- A rest parameter that is matched as an object is bound, but not forwarded: a spread object has
no elements. -/
theorem objectRest_not_forwarded :
    objectRest.boundNames.Nodup ∧ (∀ param ∈ objectRest.params, param.binding.KeysDistinct) ∧
    (∀ param ∈ objectRest.params.dropLast, param.rest = false) ∧
    ∃ s, bindParams Host.indexed objectRest.params [.string "one"] [] = some s ∧
      ¬ ∃ args, Expr.values Host.indexed s (Instrument.forwarded objectRest.params) = some args ∧
        bindParams Host.indexed (Instrument.innerParams objectRest.params) args [] = some s := by
  refine ⟨by decide, ?_, by decide, [("first", .string "one")], rfl, ?_⟩
  · simp [objectRest, Pattern.KeysDistinct, Pattern.FieldsDistinct]
  · rintro ⟨args, evaluated, -⟩
    have refused : Expr.values Host.indexed [("first", .string "one")]
        (Instrument.forwarded objectRest.params) = none :=
      Instrument.values_forwarded_of_isObject (fun _ => rfl) (List.mem_singleton_self _) rfl rfl _
    simp [refused] at evaluated

end TypeGuard
