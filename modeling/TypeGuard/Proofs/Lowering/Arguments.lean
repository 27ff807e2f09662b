import Mathlib.Data.List.Nodup
import TypeGuard.Proofs.Descriptor.Library
import TypeGuard.Proofs.Lowering.Capture
import TypeGuard.Proofs.Lowering.Forwarding

/-!
# What the checks of arguments accept

The check of a parameter passes exactly if the value that is checked is of the annotated type. For a
name, and for a pattern that is checked through the arguments of the call, that is the value of the
parameter. A pattern with a default, or in an arrow function, is checked by what it binds:
`Pattern.kept` is the part of a value that a pattern keeps, and `Instrument.checks_pass_iff` says
that this part is what has to be of the type.

A check stands inside the function, and so does the expression of its type. It is judged in the
environment of the call, where a parameter may hide the name of a type or of the library.
-/

namespace TypeGuard

section
variable (host : Host)

namespace Pattern

mutual

/-- The part of a value that a pattern keeps: of an object the matched properties, of an array the
matched elements, and all others only if the pattern has a name for them. Where a default applied, it
is kept in the place of what was undefined, and what a hole skips is undefined. -/
def kept : Pattern → Value → Env → Option Value
  | .ident _, v, _ => some v
  | .default target value, v, env => do
    let v ← v.orDefault host env (some value)
    kept target v env
  | .object fields rest, v, env =>
    if v.isNil then none
    else do
      let properties ← keptFields fields v env
      let others := rest.map fun _ => v.without host (fields.map (·.key))
      return .object fun key => (others.bind fun o => o.own host key).or (properties key)
  | .array elements rest, v, env => do
    let vs ← v.elements host
    let parts ← keptElements elements vs env
    return .array (parts ++ if rest.isSome then vs.drop elements.length else [])
  | .stray _, _, _ => none

/-- The properties that the fields keep; of two fields for one key the later one counts. -/
def keptFields : List (PatternField Pattern) → Value → Env → Option (String → Option Value)
  | [], _, _ => some fun _ => none
  | ⟨name, value⟩ :: fields, v, env => do
    let part ← kept value (v.get host.property name) env
    let env ← bind host value (v.get host.property name) env
    let later ← keptFields fields v env
    return fun key => (later key).or (if key = name then some part else none)

def keptElements : List (Option Pattern) → List Value → Env → Option (List Value)
  | [], _, _ => some []
  | none :: elements, vs, env => do return .undefined :: (← keptElements elements vs.tail env)
  | some element :: elements, vs, env => do
    let part ← kept element (vs.headD .undefined) env
    let env ← bind host element (vs.headD .undefined) env
    return part :: (← keptElements elements vs.tail env)

end

end Pattern

/-- A parameter in a call: its value after its default, and what is bound before it. -/
structure BoundParam where
  param : Param Pattern Expr
  value : Value
  before : Env

/-- The parameters of a function in a call with the given arguments. -/
def boundParams : List (Param Pattern Expr) → List Value → Env → Option (List BoundParam)
  | [], _, _ => some []
  | param :: params, args, env =>
    if param.rest then do
      let after ← param.binding.bind host (.array args) env
      return ⟨param, .array args, env⟩ :: (← boundParams params [] after)
    else do
      let v ← (args.headD .undefined).orDefault host env param.default
      let after ← param.binding.bind host v env
      return ⟨param, v, env⟩ :: (← boundParams params args.tail after)

/-- What is checked of a parameter: its value, or what its pattern keeps of it. -/
def BoundParam.checked (arrow : Bool) (b : BoundParam) : Option Value :=
  match b.param.binding with
  | .ident _ => some b.value
  | binding =>
    if arrow || b.param.default.isSome then binding.kept host b.value b.before else some b.value

/-- The arguments object of a call has the given arguments, as far as there are parameters. -/
def Host.HasArguments (env : Env) (count : Nat) (args : List Value) : Prop :=
  ∀ index < count,
    host.evaluate env (.raw s!"arguments[{index}]") = some (args[index]?.getD .undefined)

/-- One of the names is bound in the environment. -/
def Env.hides (env : Env) (names : List String) : Bool :=
  names.any fun name => (env.lookup name).isSome

/-- The check does not fail: its subject has a value, and its type accepts that value. Where the
function hides a name that the helper or the type is called by, or the helper hides the library from
itself, it is up to the host what becomes of the call. -/
def Stmt.Passes (world : World) (library : Expr) (env : Env) : Stmt → Prop
  | .expr (.call (.ident helper) [value, type, .string label]) =>
    if env.hides (helper :: type.names) || library.names.any Script.helperParams.contains then
      (host.evaluate env (.call (.ident helper) [value, type, .string label])).isSome = true
    else ∃ v, Expr.value host env value = some v ∧ world.Accepts library type v
  | _ => False

end

/-- The value is of the type of an annotated parameter, or absent if the parameter is optional. -/
def Param.Admits (world : World) (scope : Scope) (param : Param Pattern Expr) (v : Value) : Prop :=
  ∃ type, param.type = some type ∧
    (type.Satisfies world scope v ∨ param.optional = true ∧ v.isNil = true)

/-- What a parameter is checked against. -/
def Param.validator? (scope : Scope) (param : Param Pattern Expr) : Option Descriptor :=
  param.type.bind fun type => (Instrument.paramDescriptor scope type param.optional).toOption

/-- What a parameter list has to satisfy: a rest parameter is a name and the last parameter, and no
object type of an annotation lists a key twice. -/
structure Signature.Regular (scope : Scope) (signature : Signature Pattern Expr) : Prop where
  last : ∀ param ∈ signature.params.dropLast, param.rest = false
  rest : ∀ param ∈ signature.params, param.rest = true → ∃ name, param.binding = .ident name
  keys : ∀ d ∈ signature.params.filterMap (Param.validator? scope), d.KeysDistinct

/-- The names that the checks of a function refer to, apart from those of its parameters: `undefined`
for what a pattern skips, the helper, the library, and the types and predicates of annotations. -/
def Signature.outerNames (ctx : Context) (scope : Scope) (signature : Signature Pattern Expr) :
    List String :=
  "undefined" :: ctx.helperName.1 :: (ctx.library.1.names ++
    (signature.params.filterMap (Param.validator? scope)).flatMap
      fun d => d.expressions.flatMap Expr.names)

/-! ## Rebuilt values -/

section
variable {host : Host}

namespace Pattern

-- Each pattern appends bindings of its own names, and what is rebuilt from them is what it keeps.
mutual

theorem value_rebuild : ∀ (p : Pattern) {v : Value} {env env' : Env},
    p.bind host v env = some env' →
    ∃ bound w, env' = env ++ bound ∧ bound.map Prod.fst = p.boundNames ∧
      p.kept host v env = some w ∧
      ∀ s : Env, s.Contains bound → s.lookup "undefined" = none →
        Expr.value host s p.rebuild = some w
  | .ident name, v, env, env', h => by
    refine ⟨[(name, v)], v, by simpa [bind] using h.symm, rfl, rfl, fun s contains _ => ?_⟩
    exact Expr.value_ident (contains (name, v) (List.mem_singleton_self _))
  | .default target e, v, env, env', h => by
    obtain ⟨w, settled, h⟩ := Option.bind_eq_some_iff.1 h
    obtain ⟨bound, part, rfl, names, keeps, rebuilt⟩ := value_rebuild target h
    exact ⟨bound, part, rfl, names, by simp [kept, settled, keeps], rebuilt⟩
  | .object fields rest, v, env, env', h => by
    rw [bind] at h
    split at h
    · exact absurd h (by simp)
    next present =>
      obtain ⟨inner, h, last⟩ := Option.bind_eq_some_iff.1 h
      obtain ⟨bound, properties, rfl, names, keeps, rebuilt⟩ := properties_rebuildFields fields h
      have whole : kept host (.object fields rest) v env = some (.object fun key =>
          ((rest.map fun _ => v.without host (fields.map (·.key))).bind
            fun o => o.own host key).or (properties key)) := by
        simp [kept, present, keeps]
      refine ⟨_, _, (Option.some.inj last).symm.trans (List.append_assoc ..),
        by simp [boundNames, names, Function.comp_def], whole, ?_⟩
      intro s contains free
      obtain ⟨held, last⟩ := Env.contains_append.1 contains
      refine Expr.value_object (rebuilt s _ _ held free ?_)
      cases rest with
      | none => rfl
      | some name =>
        have found := last (name, _) (List.mem_singleton_self _)
        simp [Expr.properties, Expr.value_ident found]
  | .array elements rest, v, env, env', h => by
    obtain ⟨vs, iterated, h⟩ := Option.bind_eq_some_iff.1 h
    obtain ⟨inner, h, last⟩ := Option.bind_eq_some_iff.1 h
    obtain ⟨bound, parts, rfl, names, keeps, rebuilt⟩ := values_rebuildElements elements h
    have whole : kept host (.array elements rest) v env
        = some (.array (parts ++ if rest.isSome then vs.drop elements.length else [])) := by
      simp [kept, iterated, keeps]
    refine ⟨_, _, (Option.some.inj last).symm.trans (List.append_assoc ..),
      by simp [boundNames, names, Function.comp_def], whole, ?_⟩
    intro s contains free
    obtain ⟨held, last⟩ := Env.contains_append.1 contains
    refine Expr.value_array (rebuilt s _ _ held free ?_)
    cases rest with
    | none => rfl
    | some name =>
      have found := last (name, _) (List.mem_singleton_self _)
      exact Expr.values_spread (Expr.value_ident found)
  | .stray _, _, _, _, h => absurd h (by simp [bind])
termination_by structural p => p

theorem properties_rebuildFields : ∀ (fields : List (PatternField Pattern)) {v : Value}
    {env env' : Env}, bindFields host fields v env = some env' →
    ∃ bound properties, env' = env ++ bound ∧ bound.map Prod.fst = fieldNames fields ∧
      keptFields host fields v env = some properties ∧
      ∀ (s : Env) (more : List (Entry Expr)) (later : String → Option Value), s.Contains bound →
        s.lookup "undefined" = none → Expr.properties host s more = some later →
        Expr.properties host s (rebuildFields fields ++ more)
          = some fun key => (later key).or (properties key)
  | [], v, env, env', h => by
    refine ⟨[], fun _ => none, by simpa [bindFields] using h.symm, rfl, rfl, ?_⟩
    intro s more later _ _ evaluated
    simpa [rebuildFields] using evaluated
  | ⟨name, value⟩ :: fields, v, env, env', h => by
    obtain ⟨inner, first, others⟩ := Option.bind_eq_some_iff.1 h
    obtain ⟨bound, part, rfl, names, keeps, rebuilt⟩ := value_rebuild value first
    obtain ⟨bound', properties, rfl, names', keeps', rebuilt'⟩ :=
      properties_rebuildFields fields others
    refine ⟨bound ++ bound', fun key => (properties key).or (if key = name then some part else none),
      List.append_assoc .., by simp [fieldNames, names, names'],
      by simp [keptFields, keeps, first, keeps'], ?_⟩
    intro s more later contains free evaluated
    obtain ⟨held, held'⟩ := Env.contains_append.1 contains
    simp [rebuildFields, Expr.properties, rebuilt s held free,
      rebuilt' s more later held' free evaluated, Option.or_assoc]
termination_by structural fields => fields

theorem values_rebuildElements : ∀ (elements : List (Option Pattern)) {vs : List Value}
    {env env' : Env}, bindElements host elements vs env = some env' →
    ∃ bound parts, env' = env ++ bound ∧ bound.map Prod.fst = elementNames elements ∧
      keptElements host elements vs env = some parts ∧
      ∀ (s : Env) (more : List Expr) (tail : List Value), s.Contains bound →
        s.lookup "undefined" = none → Expr.values host s more = some tail →
        Expr.values host s (rebuildElements elements ++ more) = some (parts ++ tail)
  | [], vs, env, env', h => by
    refine ⟨[], [], by simpa [bindElements] using h.symm, rfl, rfl, ?_⟩
    intro s more tail _ _ evaluated
    simpa [rebuildElements] using evaluated
  | none :: elements, vs, env, env', h => by
    obtain ⟨bound, parts, rfl, names, keeps, rebuilt⟩ := values_rebuildElements elements h
    refine ⟨bound, .undefined :: parts, rfl, names, by simp [keptElements, keeps], ?_⟩
    intro s more tail contains free evaluated
    have hole : Expr.value host s (.ident "undefined") = some .undefined := by
      simp [Expr.value, free]
    exact Expr.values_cons (by simp) hole (rebuilt s more tail contains free evaluated)
  | some element :: elements, vs, env, env', h => by
    obtain ⟨inner, first, others⟩ := Option.bind_eq_some_iff.1 h
    obtain ⟨bound, part, rfl, names, keeps, rebuilt⟩ := value_rebuild element first
    obtain ⟨bound', parts, rfl, names', keeps', rebuilt'⟩ := values_rebuildElements elements others
    have whole : keptElements host (some element :: elements) vs env = some (part :: parts) := by
      rw [keptElements, keeps, Option.bind_eq_bind, Option.bind_some, first]
      simp [keeps']
    refine ⟨bound ++ bound', part :: parts, List.append_assoc ..,
      by simp [elementNames, names, names'], whole, ?_⟩
    intro s more tail contains free evaluated
    obtain ⟨held, held'⟩ := Env.contains_append.1 contains
    exact Expr.values_cons (rebuild_ne_spread element) (rebuilt s held free)
      (rebuilt' s more tail held' free evaluated)
termination_by structural elements => elements

end

end Pattern

/-! ## Parameters -/

variable {param : Param Pattern Expr} {params : List (Param Pattern Expr)} {args : List Value}
  {env final : Env}

/-- One parameter of a call, and the others after it. -/
theorem bindParams_cons (last : params ≠ [] → param.rest = false)
    (h : bindParams host (param :: params) args env = some final) :
    ∃ v mid args', param.binding.bind host v env = some mid ∧
      bindParams host params args' mid = some final ∧
      (∀ bs, boundParams host params args' mid = some bs →
        boundParams host (param :: params) args env = some (⟨param, v, env⟩ :: bs)) ∧
      (param.rest = false → param.default = none → v = args.headD .undefined) ∧
      (params ≠ [] → args' = args.tail) := by
  rw [bindParams] at h
  split at h
  next isRest =>
    obtain ⟨mid, first, others⟩ := Option.bind_eq_some_iff.1 h
    refine ⟨.array args, mid, [], first, others, ?_, ?_, ?_⟩
    · intro bs found
      simp [boundParams, isRest, first, found]
    · simp [isRest]
    · intro more
      simp [last more] at isRest
  next single =>
    obtain ⟨v, settled, h⟩ := Option.bind_eq_some_iff.1 h
    obtain ⟨mid, first, others⟩ := Option.bind_eq_some_iff.1 h
    refine ⟨v, mid, args.tail, first, others, ?_, ?_, fun _ => rfl⟩
    · intro bs found
      rw [boundParams, if_neg single, settled]
      simp [first, found]
    · intro _ plain
      rw [plain, Value.orDefault_none] at settled
      exact (Option.some.inj settled).symm

theorem Param.last_cons (last : ∀ p ∈ (param :: params).dropLast, p.rest = false) :
    (params ≠ [] → param.rest = false) ∧ ∀ param ∈ params.dropLast, param.rest = false := by
  cases params with
  | nil => simp
  | cons next params =>
    obtain ⟨first, others⟩ := List.forall_mem_cons.1 last
    exact ⟨fun _ => first, others⟩

theorem Param.validators_tail {scope : Scope} :
    params.filterMap (Param.validator? scope)
      ⊆ (param :: params).filterMap (Param.validator? scope) :=
  ((List.sublist_cons_self param params).filterMap _).subset

theorem bindParams_append (last : ∀ param ∈ params.dropLast, param.rest = false)
    (h : bindParams host params args env = some final) :
    ∃ bound, final = env ++ bound ∧
      bound.map Prod.fst = params.flatMap fun param => param.binding.boundNames := by
  induction params generalizing args env with
  | nil => exact ⟨[], by simpa [bindParams] using h.symm, rfl⟩
  | cons param params ih =>
    obtain ⟨single, last⟩ := Param.last_cons last
    obtain ⟨v, mid, args, first, others, -⟩ := bindParams_cons single h
    obtain ⟨bound, -, rfl, names, -⟩ := Pattern.value_rebuild param.binding first
    obtain ⟨bound', rfl, names'⟩ := ih last others
    exact ⟨bound ++ bound', List.append_assoc .., by simp [names, names']⟩

end

/-! ## Checks -/

theorem Env.hides_eq_false_iff {env : Env} {names : List String} :
    env.hides names = false ↔ ∀ name ∈ names, env.lookup name = none := by
  simp only [Env.hides, List.any_eq_false, Bool.not_eq_true, Option.isSome_eq_false_iff,
    Option.isNone_iff_eq_none]

theorem Env.hides_eq_false_of_notMem {env : Env} {names : List String}
    (h : ∀ name ∈ names, name ∉ env.map Prod.fst) : env.hides names = false := by
  refine Env.hides_eq_false_iff.2 fun name member => List.lookup_eq_none_iff.2 fun b bound => ?_
  have other : name ≠ b.1 := fun same => h name member (same ▸ List.mem_map_of_mem bound)
  simpa using other

theorem Context.library_of_binding {ctx : Context} {b : LibraryBinding} (h : ctx.binding = some b) :
    ctx.library.1 = b.expression := by
  simp [Context.library, h]

theorem Context.helperName_library (ctx : Context) : ctx.library.2.helperName.1 = ctx.helperName.1 := by
  obtain ⟨_, binding, _, _, assertName, _⟩ := ctx
  cases binding <;> cases assertName <;> rfl

theorem Context.helperName_of_settled {ctx : Context} {name : String}
    (h : ctx.assertName = some name) : ctx.helperName.1 = name := by
  simp [Context.helperName, h]

namespace Instrument

open Lowering

/-- A check refers to the library and to the helper as they are settled, and leaves them so. -/
theorem assertion_settled {value : Expr} {d : Descriptor} {label : String} {check : Stmt}
    {ctx ctx' : Context} (h : (assertion value d label).Yields ctx check ctx') :
    ctx'.library.1 = ctx.library.1 ∧ ctx'.helperName.1 = ctx.helperName.1 ∧
      check = .expr (.call (.ident ctx.helperName.1)
        [value, d.lower ctx.library.1, .string label]) := by
  simp only [assertion, Lowering.library, Lowering.helperName, yields_bind, yields_modifyGet,
    yields_pure] at h
  obtain ⟨library, mid, hlibrary, helper, after, hhelper, rfl, rfl⟩ := h
  obtain ⟨b, hb, rfl⟩ := Context.library_settles hlibrary
  have kept := Context.Extends.helperName mid
  rw [hhelper] at kept
  have found : ctx.library.1 = b.expression := by rw [hlibrary]
  have named : ctx.helperName.1 = helper := by
    rw [← ctx.helperName_library, hlibrary, hhelper]
  refine ⟨(Context.library_of_binding (kept.binding b hb)).trans found.symm, ?_, by rw [found, named]⟩
  rw [named]
  exact Context.helperName_of_settled (Context.helperName_settles hhelper)

section
variable {host : Host} {world : World} {scope : Scope} {library : Expr} {arrow : Bool}

/-- The type that a parameter is checked against accepts what the parameter admits. -/
theorem paramDescriptor_accepts {param : Param Pattern Expr} {type : Ty} {d : Descriptor}
    (respects : world.Respects library) (typed : param.type = some type)
    (mapped : paramDescriptor scope type param.optional = .ok d) (distinct : d.KeysDistinct)
    (v : Value) : world.Accepts library (d.lower library) v ↔ param.Admits world scope v := by
  simp only [paramDescriptor, bind_eq_ok_iff, pure_eq_ok_iff] at mapped
  obtain ⟨inner, encoded, rfl⟩ := mapped
  have dotted : inner.Dotted := Ty.descriptor_induction (Ty.dotted_rules scope) encoded
  have accepts : inner.Accepts world v ↔ type.Satisfies world scope v := Ty.accepts_iff encoded v
  simp only [Param.Admits, typed, Option.some.injEq, exists_eq_left']
  revert distinct
  cases param.optional with
  | false =>
    intro distinct
    simpa using (Descriptor.accepts_lower respects inner dotted distinct v).trans accepts
  | true =>
    intro distinct
    refine (Descriptor.accepts_lower respects (.maybe inner none) dotted distinct v).trans ?_
    simp [Descriptor.Accepts, accepts, or_comm]

theorem subject_pattern {param : Param Pattern Expr} (index : Nat)
    (pattern : ∀ name, param.binding ≠ .ident name) :
    (subject param index arrow).1 = if arrow || param.default.isSome then param.binding.rebuild
      else .raw s!"arguments[{index}]" := by
  unfold subject
  split
  next name named => exact absurd named (pattern name)
  · split <;> rfl

/-- The subject of a check is worth what is checked of the parameter. -/
theorem value_subject {b : BoundParam} {index : Nat} {bound s : Env}
    (binds : b.param.binding.bind host b.value b.before = some (b.before ++ bound))
    (contains : s.Contains bound) (free : s.lookup "undefined" = none)
    (argument : arrow = false → b.param.default = none → (∀ name, b.param.binding ≠ .ident name) →
      host.evaluate s (.raw s!"arguments[{index}]") = some b.value) :
    ∃ w, b.checked host arrow = some w ∧
      Expr.value host s (subject b.param index arrow).1 = some w := by
  obtain ⟨bound', w, same, -, keeps, rebuilt⟩ := Pattern.value_rebuild _ binds
  obtain rfl : bound = bound' := List.append_cancel_left same
  have evaluated := rebuilt s contains free
  unfold BoundParam.checked
  split
  next name named =>
    rw [named] at keeps evaluated
    refine ⟨b.value, rfl, ?_⟩
    simpa [subject, named, Pattern.rebuild, Pattern.kept] using evaluated.trans keeps.symm
  next pattern =>
    rw [subject_pattern index pattern]
    split
    next rebuild => exact ⟨w, keeps, evaluated⟩
    next plain =>
      simp only [Bool.or_eq_true, not_or, Bool.not_eq_true, Option.isSome_eq_false_iff,
        Option.isNone_iff_eq_none] at plain
      exact ⟨b.value, rfl, argument plain.1 plain.2 pattern⟩

variable (host world scope library arrow) in
/-- The check passes in a call exactly if what is checked of the parameter is of its type. -/
def CheckedBy (env : Env) (b : BoundParam) (check : Stmt) : Prop :=
  ∃ w, b.checked host arrow = some w ∧
    (check.Passes host world library env ↔ b.param.Admits world scope w)

variable (scope library) in
/-- The environment does not hide what the checks of a list of parameters refer to, and the helper
does not hide the library. -/
structure Shows (s : Env) (helper : String) (params : List (Param Pattern Expr)) : Prop where
  undefinedFree : s.lookup "undefined" = none
  helperFree : s.lookup helper = none
  libraryFree : ∀ name ∈ library.names, s.lookup name = none
  typesFree : ∀ d ∈ params.filterMap (Param.validator? scope), ∀ e ∈ d.expressions, ∀ name ∈ e.names,
    s.lookup name = none
  inHelper : ∀ name ∈ library.names, name ∉ Script.helperParams

theorem Shows.tail {s : Env} {helper : String} {param : Param Pattern Expr}
    {params : List (Param Pattern Expr)} (h : Shows scope library s helper (param :: params)) :
    Shows scope library s helper params where
  __ := h
  typesFree d member := h.typesFree d (Param.validators_tail member)

/-- A check in which no name is hidden passes if its type accepts its subject. -/
theorem Shows.passes_iff {s : Env} {helper label : String} {params : List (Param Pattern Expr)}
    {value : Expr} {d : Descriptor} (h : Shows scope library s helper params)
    (member : d ∈ params.filterMap (Param.validator? scope)) :
    (Stmt.expr (.call (.ident helper) [value, d.lower library, .string label])).Passes host world
      library s ↔ ∃ v, Expr.value host s value = some v ∧ world.Accepts library (d.lower library) v := by
  have typeFree : ∀ name ∈ (d.lower library).names, s.lookup name = none :=
    d.names_lower h.libraryFree (h.typesFree d member)
  have shown : s.hides (helper :: (d.lower library).names) = false :=
    Env.hides_eq_false_iff.2 (List.forall_mem_cons.2 ⟨h.helperFree, typeFree⟩)
  have found : library.names.any Script.helperParams.contains = false := by simpa using h.inHelper
  rw [Stmt.Passes, shown, found, Bool.or_false, if_neg Bool.false_ne_true]

/-- The checks of the parameters from `index` on, in an environment `s` that has their names. -/
theorem checks_checkedBy {params : List (Param Pattern Expr)} {index : Nat} {ctx ctx' : Context}
    {found : List Stmt} {args : List Value} {env final s : Env} {helper : String}
    (h : (checks scope arrow index params).Yields ctx found ctx') (settled : ctx.library.1 = library)
    (named : ctx.helperName.1 = helper) (respects : world.Respects library)
    (last : ∀ param ∈ params.dropLast, param.rest = false)
    (rest : ∀ param ∈ params, param.rest = true → ∃ name, param.binding = .ident name)
    (keys : ∀ d ∈ params.filterMap (Param.validator? scope), d.KeysDistinct)
    (shows : Shows scope library s helper params)
    (binds : bindParams host params args env = some final) (contains : s.Contains final)
    (arguments : arrow = false → ∀ i < params.length,
      host.evaluate s (.raw s!"arguments[{index + i}]") = some (args[i]?.getD .undefined)) :
    ∃ bs, boundParams host params args env = some bs ∧
      List.Forall₂ (CheckedBy host world scope library arrow s)
        (bs.filter (·.param.type.isSome)) found := by
  induction params generalizing index ctx found args env with
  | nil =>
    simp only [checks, yields_pure] at h
    obtain ⟨rfl, rfl⟩ := h
    exact ⟨[], rfl, .nil⟩
  | cons param params ih =>
    obtain ⟨isName, rest⟩ := List.forall_mem_cons.1 rest
    obtain ⟨single, last⟩ := Param.last_cons last
    obtain ⟨v, mid, args', first, binds, assembled, given, tail⟩ := bindParams_cons single binds
    obtain ⟨more, rfl, -⟩ := bindParams_append last binds
    obtain ⟨bound, -, rfl, -⟩ := Pattern.value_rebuild param.binding first
    have held : s.Contains bound := (Env.contains_append.1 (Env.contains_append.1 contains).1).2
    have keys' : ∀ d ∈ params.filterMap (Param.validator? scope), d.KeysDistinct :=
      fun d member => keys d (Param.validators_tail member)
    have arguments' : arrow = false → ∀ i < params.length,
        host.evaluate s (.raw s!"arguments[{index + 1 + i}]") = some (args'[i]?.getD .undefined) := by
      intro function i bounded
      have := arguments function (i + 1) (by simpa using bounded)
      rw [tail (List.ne_nil_of_length_pos (by omega)), List.getElem?_tail]
      rwa [Nat.add_assoc, Nat.add_comm 1 i]
    have argument : arrow = false → param.default = none → (∀ name, param.binding ≠ .ident name) →
        host.evaluate s (.raw s!"arguments[{index}]") = some v := by
      intro function plain pattern
      have single : param.rest = false := by
        by_contra isRest
        obtain ⟨name, isName⟩ := isName (by simpa using isRest)
        exact pattern name isName
      rw [given single plain, List.headD_eq_head?_getD, List.head?_eq_getElem?]
      exact arguments function 0 (Nat.zero_lt_succ _)
    obtain ⟨w, checked, evaluated⟩ :=
      value_subject (b := ⟨param, v, env⟩) first held shows.undefinedFree argument
    unfold checks at h
    split at h
    next untyped =>
      obtain ⟨bs, found, each⟩ := ih h settled named last rest keys' shows.tail binds arguments'
      exact ⟨_, assembled bs found, by simpa [untyped] using each⟩
    next type typed =>
      simp only [yields_bind, yields_ofExcept, yields_pure] at h
      obtain ⟨d, _, ⟨mapped, rfl⟩, check, _, hcheck, others, _, hothers, rfl, rfl⟩ := h
      have member : d ∈ (param :: params).filterMap (Param.validator? scope) := by
        simp [Param.validator?, typed, mapped, Except.toOption]
      obtain ⟨keptLibrary, keptHelper, rfl⟩ := assertion_settled hcheck
      obtain ⟨bs, found, each⟩ := ih hothers (keptLibrary.trans settled) (keptHelper.trans named)
        last rest keys' shows.tail binds arguments'
      refine ⟨_, assembled bs found, ?_⟩
      rw [List.filter_cons_of_pos (by simp [typed])]
      refine .cons ⟨w, checked, ?_⟩ each
      rw [settled, named, shows.passes_iff member, evaluated]
      simpa using paramDescriptor_accepts respects typed mapped (keys d member) w

/-- The check of an annotated parameter passes exactly if what is checked of the parameter is of its
type, and each annotated parameter has one check. That is so in every environment in which the
parameters have their values and the other names of the checks are not hidden. -/
theorem checks_pass_iff {signature : Signature Pattern Expr} {ctx ctx' : Context}
    {found : List Stmt} {args : List Value} {env s : Env} (regular : signature.Regular scope)
    (h : (checks scope arrow 0 signature.params).Yields ctx found ctx')
    (respects : world.Respects ctx.library.1)
    (inHelper : ∀ name ∈ ctx.library.1.names, name ∉ Script.helperParams)
    (binds : bindParams host signature.params args [] = some env) (contains : s.Contains env)
    (shown : s.hides (signature.outerNames ctx scope) = false)
    (arguments : arrow = false → host.HasArguments s signature.params.length args) :
    ∃ bs, boundParams host signature.params args [] = some bs ∧
      List.Forall₂ (CheckedBy host world scope ctx.library.1 arrow s)
        (bs.filter (·.param.type.isSome)) found := by
  have free := Env.hides_eq_false_iff.1 shown
  simp only [Signature.outerNames, List.forall_mem_cons, List.forall_mem_append] at free
  obtain ⟨undefined, helper, library, types⟩ := free
  have shows : Shows scope ctx.library.1 s ctx.helperName.1 signature.params := by
    refine ⟨undefined, helper, library, fun d member e inside name named => ?_, inHelper⟩
    exact types name (List.mem_flatMap.2 ⟨d, member, List.mem_flatMap.2 ⟨e, inside, named⟩⟩)
  refine checks_checkedBy h rfl rfl respects regular.last regular.rest regular.keys shows binds
    contains ?_
  intro function i bounded
  simpa using arguments function i bounded

end

end Instrument

/-- The parameters `x?: string, {a}: {a: string, b: boolean}, {c = e}: {c: string} = d,
...zs: Array<Tag>`. -/
def mixedSignature : Signature Pattern Expr where
  params :=
    [{ binding := .ident "x", type := some (.primitive .string .unknown), optional := true },
     { binding := .object [⟨"a", .ident "a"⟩] none
       type := some (.object { properties :=
         [{ key := "a", value := .primitive .string .unknown },
          { key := "b", value := .primitive .boolean .unknown }] }) },
     { binding := .object [⟨"c", .default (.ident "c") (.raw "e")⟩] none
       type := some (.object { properties :=
         [{ key := "c", value := .primitive .string .unknown }] })
       default := some (.raw "d") },
     { binding := .ident "zs", type := some (.array (.named { name := ⟨["Tag"]⟩ }) .unknown)
       rest := true }]

theorem mixedSignature_regular : mixedSignature.Regular [] where
  last := by decide
  rest := by simp [mixedSignature]
  keys := by decide

/-- A context in which the library is bound to `t`. -/
def boundContext : Context where
  binding := some ⟨.ident "t", .required, .unknown⟩

/-- The host of a call with up to four arguments, in which `d` is an empty object and `e` is a
string. -/
def callHost (args : List Value) : Host :=
  { Host.bare with evaluate := fun _ e =>
      match e with
      | .raw "arguments[0]" => some (args[0]?.getD .undefined)
      | .raw "arguments[1]" => some (args[1]?.getD .undefined)
      | .raw "arguments[2]" => some (args[2]?.getD .undefined)
      | .raw "arguments[3]" => some (args[3]?.getD .undefined)
      | .raw "d" => some (.object fun _ => none)
      | .raw "e" => some (.string "s")
      | _ => none }

theorem callHost_hasArguments {count : Nat} (few : count ≤ 4) (env : Env) (args : List Value) :
    (callHost args).HasArguments env count args
  | 0, _ | 1, _ | 2, _ | 3, _ => rfl
  | index + 4, bounded => absurd bounded (by omega)

/-- The value `{a: "s", b: true}`. -/
def pairValue : Value :=
  .object fun key =>
    if key = "a" then some (.string "s") else if key = "b" then some (.boolean true) else none

theorem mixedSignature_checks_pass_iff :
    mixedSignature.Regular [] ∧ namedObjectsWorld.Respects boundContext.library.1 ∧
    (∀ name ∈ boundContext.library.1.names, name ∉ Script.helperParams) ∧
    ∃ host args found ctx env,
      (Instrument.checks [] false 0 mixedSignature.params).Yields boundContext found ctx ∧
      bindParams host mixedSignature.params args [] = some env ∧ Env.Contains env.reverse env ∧
      Env.hides env.reverse (mixedSignature.outerNames boundContext []) = false ∧
      host.HasArguments env.reverse mixedSignature.params.length args ∧
      ∃ bs, boundParams host mixedSignature.params args [] = some bs ∧
        List.Forall₂ (Instrument.CheckedBy host namedObjectsWorld [] (.ident "t") false env.reverse)
          (bs.filter (·.param.type.isSome)) found := by
  let args := [.undefined, pairValue]
  obtain ⟨found, ctx, yields⟩ : ∃ found ctx,
      (Instrument.checks [] false 0 mixedSignature.params).Yields boundContext found ctx :=
    ⟨_, _, rfl⟩
  obtain ⟨env, binds, names⟩ : ∃ env,
      bindParams (callHost args) mixedSignature.params args [] = some env ∧
        env.reverse.map Prod.fst = ["zs", "c", "a", "x"] := ⟨_, rfl, rfl⟩
  have contains : Env.Contains env.reverse env := fun b member =>
    Env.contains_self (names ▸ by decide) b (List.mem_reverse.2 member)
  have shown : Env.hides env.reverse (mixedSignature.outerNames boundContext []) = false :=
    Env.hides_eq_false_of_notMem (names ▸ by decide)
  have inHelper : ∀ name ∈ boundContext.library.1.names, name ∉ Script.helperParams := by decide
  have arguments := callHost_hasArguments (Nat.le_refl 4) env.reverse args
  exact ⟨mixedSignature_regular, namedObjectsWorld_respects, inHelper, callHost args, args, found,
    ctx, env, yields, binds, contains, shown, arguments,
    Instrument.checks_pass_iff mixedSignature_regular yields namedObjectsWorld_respects inHelper
      binds contains shown fun _ => arguments⟩

/-! ## Checks of whole values -/

namespace Instrument

open Lowering

/-- In a call of a function with these arguments, each check decides whether the whole value of its
parameter is of the type. A later binding of a name hides an earlier one. -/
def ChecksDecide (host : Host) (world : World) (ctx : Context) (arrow : Bool)
    (params : List (Param Pattern Expr)) (args : List Value) : Prop :=
  ∀ found ctx' env bs, (checks [] arrow 0 params).Yields ctx found ctx' →
    bindParams host params args [] = some env →
    (arrow = false → host.HasArguments env.reverse params.length args) →
    boundParams host params args [] = some bs →
    List.Forall₂ (fun b check => check.Passes host world ctx.library.1 env.reverse ↔
      b.param.Admits world [] b.value) (bs.filter (·.param.type.isSome)) found

section
variable {host : Host} {world : World} {ctx ctx' : Context} {arrow : Bool}
  {param : Param Pattern Expr} {params : List (Param Pattern Expr)} {args : List Value}
  {found : List Stmt} {env : Env} {b : BoundParam} {bs : List BoundParam} {type : Ty}
  {d : Descriptor}

variable (decides : ChecksDecide host world ctx arrow (param :: params) args)
  (typed : param.type = some type) (mapped : paramDescriptor [] type param.optional = .ok d)
  (yields : (checks [] arrow 0 (param :: params)).Yields ctx found ctx')
  (binds : bindParams host (param :: params) args [] = some env)
  (arguments : arrow = false → host.HasArguments env.reverse (params.length + 1) args)
  (assembled : boundParams host (param :: params) args [] = some (b :: bs)) (same : b.param = param)
include decides typed mapped yields binds arguments assembled same

theorem ChecksDecide.first_passes_iff :
    (Stmt.expr (.call (.ident ctx.helperName.1) [(subject param 0 arrow).1, d.lower ctx.library.1,
        .string (subject param 0 arrow).2])).Passes host world ctx.library.1 env.reverse ↔
      param.Admits world [] b.value := by
  have each := decides _ _ _ _ yields binds arguments assembled
  rw [List.filter_cons_of_pos (by simp [same, typed])] at each
  unfold checks at yields
  simp only [typed, yields_bind, yields_ofExcept, yields_pure] at yields
  obtain ⟨d', _, ⟨mapped', rfl⟩, check, _, hcheck, others, _, -, rfl, rfl⟩ := yields
  obtain rfl : d = d' := Except.ok.inj (mapped.symm.trans mapped')
  obtain ⟨-, -, rfl⟩ := assertion_settled hcheck
  obtain ⟨first, -⟩ := List.forall₂_cons.1 each
  rwa [same] at first

theorem ChecksDecide.admits_iff {w : Value} (respects : world.Respects ctx.library.1)
    (distinct : d.KeysDistinct)
    (shown : (Env.hides env.reverse (ctx.helperName.1 :: (d.lower ctx.library.1).names)
      || ctx.library.1.names.any Script.helperParams.contains) = false)
    (evaluated : Expr.value host env.reverse (subject param 0 arrow).1 = some w) :
    param.Admits world [] w ↔ param.Admits world [] b.value := by
  rw [← decides.first_passes_iff typed mapped yields binds arguments assembled same, Stmt.Passes,
    shown, if_neg Bool.false_ne_true, evaluated]
  simpa using (paramDescriptor_accepts respects typed mapped distinct w).symm

/-- A check with a hidden name is what the host makes of it. -/
theorem ChecksDecide.evaluates_iff
    (hidden : (Env.hides env.reverse (ctx.helperName.1 :: (d.lower ctx.library.1).names)
      || ctx.library.1.names.any Script.helperParams.contains) = true) :
    (host.evaluate env.reverse (.call (.ident ctx.helperName.1) [(subject param 0 arrow).1,
        d.lower ctx.library.1, .string (subject param 0 arrow).2])).isSome = true ↔
      param.Admits world [] b.value := by
  rw [← decides.first_passes_iff typed mapped yields binds arguments assembled same, Stmt.Passes,
    hidden, if_pos rfl]

end

end Instrument

/-- The parameter `{a}: {a: string, b: boolean}`. -/
def narrowParam : Param Pattern Expr where
  binding := .object [⟨"a", .ident "a"⟩] none
  type := some (.object { properties :=
    [{ key := "a", value := .primitive .string .unknown },
     { key := "b", value := .primitive .boolean .unknown }] })

/-- The parameter `{a = e}: {a: string} = d`. -/
def defaultedParam : Param Pattern Expr where
  binding := .object [⟨"a", .default (.ident "a") (.raw "e")⟩] none
  type := some (.object { properties := [{ key := "a", value := .primitive .string .unknown }] })
  default := some (.raw "d")

/-- The parameters `x: string, x: boolean`. -/
def repeatedParams : List (Param Pattern Expr) :=
  [{ binding := .ident "x", type := some (.primitive .string .unknown) },
   { binding := .ident "x", type := some (.primitive .boolean .unknown) }]

/-- The parameters `[, a]: Array<string>, undefined`. -/
def hidingParams : List (Param Pattern Expr) :=
  [{ binding := .array [none, some (.ident "a")] none
     type := some (.array (.primitive .string .unknown) .unknown) },
   { binding := .ident "undefined" }]

/-- The parameter `...[a]: Array<string>`. -/
def restParam : Param Pattern Expr where
  binding := .array [some (.ident "a")] none
  type := some (.array (.primitive .string .unknown) .unknown)
  rest := true

/-- The parameter `x: {b: string, b: boolean}`. -/
def doubledParam : Param Pattern Expr where
  binding := .ident "x"
  type := some (.object { properties :=
    [{ key := "b", value := .primitive .string .unknown },
     { key := "b", value := .primitive .boolean .unknown }] })

def stringParam (name : String) : Param Pattern Expr where
  binding := .ident name
  type := some (.primitive .string .unknown)

/-- The parameter `Tag: Tag`. -/
def tagParam : Param Pattern Expr where
  binding := .ident "Tag"
  type := some (.named { name := ⟨["Tag"]⟩ })

/-- The value of a type among what is bound. Only objects have properties. -/
def Env.typeValue (env : Env) : Expr → Option Value
  | .ident name => env.lookup name
  | .member base key => (Env.typeValue env base).map fun v => v.get (fun _ _ => .undefined) key
  | _ => none

/-- A host in which the helper passes everything if the type is missing, and where the only types are
what is bound. -/
def helperHost : Host :=
  { Host.bare with evaluate := fun env e =>
      match e with
      | .call (.ident _) [_, type, _] =>
        (env.typeValue type).bind fun v => if v.isNil then some .undefined else none
      | _ => none }

/-- A check that is about a rebuilt value can refuse a value of the type and pass one that is not. The
names of a parameter list have to be distinct and different from `undefined`, a rest parameter has to
be a name, and an object type must not list a key twice. What the checks refer to must not be hidden:
the library and the types in the function, the helper there, and the library in the helper. -/
theorem irregular_not_checksDecide :
    ¬ Instrument.ChecksDecide (callHost [pairValue]) namedObjectsWorld boundContext true
        [narrowParam] [pairValue] ∧
    ¬ Instrument.ChecksDecide (callHost []) namedObjectsWorld boundContext false
        [defaultedParam] [] ∧
    ¬ Instrument.ChecksDecide (callHost [.string "s", .boolean true]) namedObjectsWorld boundContext
        false repeatedParams [.string "s", .boolean true] ∧
    ¬ Instrument.ChecksDecide (callHost []) namedObjectsWorld boundContext true hidingParams
        [.array [.null, .string "s"], .string "s"] ∧
    ¬ Instrument.ChecksDecide (callHost [.string "s"]) namedObjectsWorld boundContext false
        [restParam] [.string "s"] ∧
    ¬ Instrument.ChecksDecide (callHost []) namedObjectsWorld boundContext true [doubledParam]
        [pairValue] ∧
    ¬ Instrument.ChecksDecide helperHost namedObjectsWorld boundContext true [stringParam "t"]
        [.boolean true] ∧
    ¬ Instrument.ChecksDecide helperHost namedObjectsWorld boundContext true [tagParam] [] ∧
    ¬ Instrument.ChecksDecide helperHost namedObjectsWorld boundContext true
        [stringParam "_assert"] [.string "s"] ∧
    ¬ Instrument.ChecksDecide helperHost namedObjectsWorld
        { binding := some ⟨.ident "x", .required, .unknown⟩ } true [stringParam "y"]
        [.string "s"] := by
  have arguments {count : Nat} (few : count ≤ 4) {args : List Value} {env : Env} :
      false = false → (callHost args).HasArguments env count args :=
    fun _ => callHost_hasArguments few env args
  refine ⟨fun decides => ?_, fun decides => ?_, fun decides => ?_, fun decides => ?_,
    fun decides => ?_, fun decides => ?_, fun decides => ?_, fun decides => ?_, fun decides => ?_,
    fun decides => ?_⟩
  -- The property that the pattern leaves out is missed.
  · have same := decides.admits_iff rfl rfl rfl rfl (by simp) rfl rfl namedObjectsWorld_respects
      (by decide) rfl rfl
    simp [narrowParam, Param.Admits, Ty.Satisfies, Ty.SatisfiesProps, Primitive.Satisfies, pairValue,
      Value.get, namedObjectsWorld, objectsWorld, Value.isNil] at same
  -- The default in the pattern stands in for what the value has not.
  · have same := decides.admits_iff rfl rfl rfl rfl (arguments (by decide)) rfl rfl
      namedObjectsWorld_respects (by decide) rfl rfl
    simp [defaultedParam, Param.Admits, Ty.Satisfies, Ty.SatisfiesProps, Primitive.Satisfies,
      Value.get, namedObjectsWorld, objectsWorld, Value.isNil] at same
  -- Both checks are about the second value.
  · have same := decides.admits_iff rfl rfl rfl rfl (arguments (by decide)) rfl rfl
      namedObjectsWorld_respects (by decide) rfl rfl
    simp [Param.Admits, Ty.Satisfies, Primitive.Satisfies] at same
  -- The hole is filled with the value of the parameter.
  · have same := decides.admits_iff rfl rfl rfl rfl (by simp) rfl rfl namedObjectsWorld_respects
      (by decide) rfl rfl
    simp [Param.Admits, Ty.Satisfies, Primitive.Satisfies, Value.IsArrayOf] at same
  -- The check is about the first argument, and the value is the array of all of them.
  · have same := decides.admits_iff rfl rfl rfl rfl (arguments (by decide)) rfl rfl
      namedObjectsWorld_respects (by decide) rfl rfl
    simp [restParam, Param.Admits, Ty.Satisfies, Primitive.Satisfies, Value.IsArrayOf] at same
  -- The object literal of the type keeps the second entry.
  · have same := decides.first_passes_iff rfl rfl rfl rfl (by simp) rfl rfl
    have refuses : ¬ doubledParam.Admits namedObjectsWorld [] pairValue := by
      simp [doubledParam, Param.Admits, Ty.Satisfies, Ty.SatisfiesProps, Primitive.Satisfies,
        pairValue, Value.get]
    refine refuses (same.1 ⟨pairValue, rfl, .interface rfl fun key e found => ?_⟩)
    by_cases isKey : key = "b"
    · subst isKey
      obtain rfl : Expr.member (.ident "t") "Boolean" = e := Option.some.inj found
      exact .irreducible ⟨true, rfl⟩
    · simp [Descriptor.lowerProps, Expr.entry?, isKey] at found
  -- The type is a property of the value, which it does not have.
  · have passes := decides.evaluates_iff rfl rfl rfl rfl (by simp) rfl rfl rfl |>.1 rfl
    simp [stringParam, Param.Admits, Ty.Satisfies, Primitive.Satisfies] at passes
  -- The type is the missing argument.
  · obtain ⟨_, ⟨⟩, ⟨_, ⟨⟩, -⟩ | ⟨⟨⟩, -⟩⟩ :=
      decides.evaluates_iff rfl rfl rfl rfl (by simp) rfl rfl rfl |>.1 rfl
  -- The helper is the argument, which cannot be called.
  · exact Bool.false_ne_true (decides.evaluates_iff rfl rfl rfl rfl (by simp) rfl rfl rfl |>.2
      ⟨_, rfl, .inl ⟨"s", rfl⟩⟩)
  -- The helper takes the argument for the library.
  · exact Bool.false_ne_true (decides.evaluates_iff rfl rfl rfl rfl (by simp) rfl rfl rfl |>.2
      ⟨_, rfl, .inl ⟨"s", rfl⟩⟩)

end TypeGuard
