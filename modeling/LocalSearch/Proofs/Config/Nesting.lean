import LocalSearch.Proofs.Config.Specification
/-!
# Nested building

A pool is built by a factory that calls the registry again, for the children of the pool. Here
building is this recursion: a factory is handed the way in which the registry answers its calls, and
calls that nest deeper than a bound have no outcome.

* `Specification.Names`: a text has a part that names a key, in whatever spelling.
* `Assembly`: a generator as factories put it together, a pool of pools included.
* `Factory.make`, `Registry.call`, `Registry.callSelectors`: the recursion.
* `Registry.Extended`: the built-in registry with generators of an application.
* `Registry.nested_at_most_two`: calls nest at most two deep, and no pool is put into another one.
-/

namespace LocalSearch

/-! ## Keys that a text names -/

namespace Specification

open Text

variable {α : Type} [Scalar α] {key text : String}

/-- A part of the text has the key in front of its first `@`, or no `@` and the key alone. Blanks
around the key do not count. -/
def Names (key text : String) : Prop :=
  ∃ part ∈ text.toList.splitOn ';', String.ofList (trimList (part.takeWhile (· ≠ '@'))) = key

theorem takeWhile_of_no_at {part : List Char} (h : '@' ∉ part) :
    part.takeWhile (· ≠ '@') = part := by
  rw [List.takeWhile_eq_self_iff]
  intro c hc
  exact decide_eq_true fun heq => h (heq ▸ hc)

theorem takeWhile_append_at {start : List Char} (h : '@' ∉ start) (rest : List Char) :
    (start ++ '@' :: rest).takeWhile (· ≠ '@') = start := by
  have hstart : ∀ c ∈ start, decide (c ≠ '@') = true := by
    intro c hc
    exact decide_eq_true fun heq => h (heq ▸ hc)
  rw [List.takeWhile_append_of_pos hstart]
  simp

/-- Where the key of a part ends does not depend on the blanks around the part. -/
theorem trimList_takeWhile_at (part : List Char) :
    trimList ((trimList part).takeWhile (· ≠ '@')) = trimList (part.takeWhile (· ≠ '@')) := by
  by_cases h : '@' ∈ part
  · obtain ⟨before, after, hpart, hbefore⟩ := List.eq_append_cons_of_mem h
    have hdrop : '@' ∉ before.dropWhile isBlank := by
      intro hmem
      exact hbefore ((List.dropWhile_suffix isBlank).subset hmem)
    rw [hpart, trimList_append_cons rfl, takeWhile_append_at hdrop, takeWhile_append_at hbefore,
      trimList_dropWhile]
  · have htrim : '@' ∉ trimList part := by
      intro hmem
      exact h (mem_of_mem_trimList hmem)
    rw [takeWhile_of_no_at h, takeWhile_of_no_at htrim, trimList_trimList]

/-- The key of a part that is read stands in front of its first `@`. -/
theorem key_of_parsePart {part : List Char} {s : Specification α}
    (h : parsePart (trimList part) = .ok s) :
    s.key = String.ofList (trimList (part.takeWhile (· ≠ '@'))) := by
  rw [← trimList_takeWhile_at]
  unfold parsePart at h
  split at h
  · rename_i hnone
    have hat : '@' ∉ trimList part := by
      intro hmem
      simpa using List.dropWhile_eq_nil_iff.1 hnone '@' hmem
    cases h
    rw [takeWhile_of_no_at hat, trimList_trimList]
  · dsimp only at h
    split at h
    · cases h
    · split at h
      · cases h
      · cases h
        rfl

/-- The keys that are read are the ones that the text names. -/
theorem exists_key_iff_names {specs : List (Specification α)} (hkey : key ≠ "")
    (h : parse text = .ok specs) : (∃ s ∈ specs, s.key = key) ↔ Names key text := by
  obtain ⟨hread, -⟩ := parse_eq_ok_iff.1 h
  unfold parts at hread
  rw [splitAt_eq_splitOn] at hread
  constructor
  · intro hs
    obtain ⟨s, hs, hname⟩ := hs
    obtain ⟨trimmed, htrimmed, hpart⟩ := (mem_of_mapM_eq_ok hread).1 hs
    obtain ⟨part, hmem, heq⟩ := List.mem_map.1 (List.mem_of_mem_filter htrimmed)
    subst heq
    exact ⟨part, hmem, (key_of_parsePart hpart).symm.trans hname⟩
  · intro hnames
    obtain ⟨part, hmem, hname⟩ := hnames
    have hsome : trimList part ≠ [] := by
      intro hnil
      apply hkey
      rw [← hname, ← trimList_takeWhile_at, hnil]
      rfl
    have htrimmed : trimList part ∈
        ((text.toList.splitOn ';').map trimList).filter (!·.isEmpty) := by
      apply List.mem_filter_of_mem (List.mem_map_of_mem hmem)
      simp [hsome]
    obtain ⟨s, hs⟩ := exists_of_mapM_eq_ok hread htrimmed
    have hmem : s ∈ specs := (mem_of_mapM_eq_ok hread).2 ⟨_, htrimmed, hs⟩
    exact ⟨s, hmem, (key_of_parsePart hs).trans hname⟩

end Specification

/-! ## Calls of factories -/

variable {X α β G H : Type}

/-- What calls come to that may nest to a bounded depth only. -/
abbrev Nesting : Type → Type :=
  ExceptT SearchError Option

namespace Nesting

/-- The calls end in a value or an error. -/
def outcome (x : Except SearchError β) : Nesting β :=
  ExceptT.mk (some x)

/-- The calls nest deeper than they may. -/
def tooDeep : Nesting β :=
  ExceptT.mk none

/-- Calls that go on from a value as a computation does, up to a translation of its result. -/
theorem bind_eq_outcome {x : Except SearchError β} {y : β → Nesting H}
    {z : β → Except SearchError G} {f : G → H}
    (h : ∀ b, x = .ok b → y b = outcome ((z b).map f)) :
    (outcome x >>= y) = outcome ((x >>= z).map f) := by
  cases x with
  | error e => rfl
  | ok b => exact h b rfl

/-- Calls for every item that end as a computation for the item does, up to a translation of the
results, end as the computation for the list. -/
theorem mapM_eq_outcome {x : G → Except SearchError β} {y : G → Nesting H} {f : β → H}
    {items : List G} (h : ∀ a ∈ items, y a = outcome ((x a).map f)) :
    items.mapM y = outcome ((items.mapM x).map (List.map f)) := by
  induction items with
  | nil => rfl
  | cons a rest ih =>
    have hrest := ih fun b hb => h b (List.mem_cons_of_mem a hb)
    rw [List.mapM_cons, List.mapM_cons, h a List.mem_cons_self, hrest]
    cases x a with
    | error e => rfl
    | ok b =>
      cases rest.mapM x with
      | error e => rfl
      | ok results => rfl

end Nesting

/-- A generator as factories put it together: the children of a pool may be pools. -/
inductive Assembly (X α : Type)
  | basic (g : BasicGenerator X)
  | pool (p : Pool (Assembly X α) α)

/-- A selector with another generator in the place of its own. -/
def Selector.withGenerator (f : G → H) (c : Selector G α) : Selector H α :=
  { c with generator := f c.generator }

/-- A pool with other generators in the place of those of its children. -/
def Pool.withGenerators (f : G → H) (p : Pool G α) : Pool H α :=
  { p with children := p.children.map (Selector.withGenerator f) }

/-- A generator as it is put together. -/
def Generator.assembly : Generator X α → Assembly X α
  | basic g => .basic g
  | pool p => .pool (p.withGenerators .basic)

variable [Scalar α]

namespace Registry

/-- The selectors of a specification in order, with generators from `call`. -/
def callAll (call : String → Nesting G) (spec : String) : Nesting (List (Selector G α)) := do
  (← .outcome (reading (Specification.parse spec))).mapM fun s => do
    return .of s.key (← call s.key) s.bonus

/-- A pool with the children of its own specification, whose generators come from `call`. -/
def callPool (props : Properties) (call : String → Nesting G) : Nesting (Pool G α) := do
  let spec ← .outcome (reading (props.require Key.poolNeighbours))
  let config ← .outcome (reading (HillClimberConfig.ofProperties props))
  let named : List (Specification α) ← .outcome (reading (Specification.parse spec))
  if named.any (·.key == "pool") then .outcome (.error nestedPool)
  else return ⟨← callAll call spec, config.random, config.update⟩

end Registry

/-- What a factory makes from the properties when the registry answers its calls with `call`. Only
the factory of the pool calls the registry. -/
def Factory.make (factory : Factory X) (props : Properties)
    (call : String → Nesting (Assembly X α)) : Nesting (Assembly X α) :=
  match factory with
  | .change => return .basic (.change false)
  | .swap => return .basic (.swap false)
  | .lazyChange => return .basic .lazyChange
  | .pool => .pool <$> Registry.callPool props call
  | .custom make => return .basic (.custom (← .outcome (make props)))

namespace Registry

/-- Calls the factory of a key, and through it others, to a depth of at most `depth`. -/
def call (r : Registry X) (props : Properties) (depth : Nat) (key : String) :
    Nesting (Assembly X α) :=
  match r.factory? key, depth with
  | none, _ => .outcome (.error (.ofConfig (.unknownSelector key)))
  | some _, 0 => .tooDeep
  | some factory, depth + 1 => factory.make props (r.call props depth)

/-- The selectors of a specification in order, built by calls to a depth of at most `depth`. -/
def callSelectors (r : Registry X) (props : Properties) (depth : Nat) (spec : String) :
    Nesting (List (Selector (Assembly X α) α)) :=
  callAll (r.call props depth) spec

/-- The built-in registry after an application has bound keys to generators of its own and to
strategies. -/
inductive Extended : Registry X → Prop
  | builtin : Extended builtin
  | addSelector {r : Registry X} (h : Extended r) (key : String)
      (make : Properties → Except SearchError X) : Extended (r.addSelector key (.custom make))
  | addStrategy {r : Registry X} (h : Extended r) (key : String) (kind : StrategyKind) :
      Extended (r.addStrategy key kind)

/-- The error of a pool that names a pool among its children: what else is wrong with the
configuration of the pool comes first. -/
def refusal (α : Type) [Scalar α] (props : Properties) (value : String) : SearchError :=
  match HillClimberConfig.ofProperties props with
  | .error e => .ofConfig e
  | .ok _ =>
    match (Specification.parse value : Except ConfigError (List (Specification α))) with
    | .error e => .ofConfig e
    | .ok _ => nestedPool

variable {r : Registry X} {props : Properties} {key : String}

/-- A key stands for something that was bound to it. -/
theorem mem_of_factory? {factory : Factory X} (h : r.factory? key = some factory) :
    (key, factory) ∈ r.selectors := by
  obtain ⟨before, after, hselectors, -⟩ := List.lookup_eq_some_iff.1 h
  rw [hselectors]
  exact List.mem_append_right before List.mem_cons_self

/-- An application has no second key for the factory of the pool. -/
theorem Extended.eq_pool (h : r.Extended) (hpool : (key, Factory.pool) ∈ r.selectors) :
    key = "pool" := by
  induction h with
  | builtin => simpa [Registry.builtin] using hpool
  | addSelector _ name make ih =>
    rcases List.mem_cons.1 hpool with heq | hmem
    · cases heq
    · exact ih (List.mem_of_mem_filter hmem)
  | addStrategy _ name kind ih => exact ih hpool

theorem call_of_unknown (h : r.factory? key = none) (depth : Nat) :
    (r.call props depth key : Nesting (Assembly X α)) =
      .outcome (.error (.ofConfig (.unknownSelector key))) := by
  unfold call
  rw [h]

theorem call_succ {factory : Factory X} (h : r.factory? key = some factory) (depth : Nat) :
    (r.call props (depth + 1) key : Nesting (Assembly X α)) =
      factory.make props (r.call props depth) := by
  conv_lhs => unfold call
  rw [h]

/-- A factory that does not call the registry needs one call. -/
theorem call_of_ne_pool (h : r.factory? key ≠ some .pool) (depth : Nat) :
    (r.call props (depth + 1) key : Nesting (Assembly X α)) =
      .outcome ((r.buildBasic props key).map .basic) := by
  unfold buildBasic
  cases hfactory : r.factory? key with
  | none => exact call_of_unknown hfactory _
  | some factory =>
    rw [call_succ hfactory]
    cases factory with
    | change => rfl
    | swap => rfl
    | lazyChange => rfl
    | pool => exact absurd hfactory h
    | custom make =>
      simp only [Factory.make]
      cases make props with
      | error e => rfl
      | ok x => rfl

/-- Selectors whose generators come from calls that end as `build` does. -/
theorem callAll_eq_outcome {build : String → Except SearchError G} {call : String → Nesting H}
    {f : G → H} {spec : String}
    (h : ∀ specs, Specification.parse spec = .ok specs →
      ∀ s : Specification α, s ∈ specs → call s.key = .outcome ((build s.key).map f)) :
    (callAll call spec : Nesting (List (Selector H α))) =
      .outcome ((buildAll build spec).map (List.map (Selector.withGenerator f))) := by
  unfold callAll buildAll
  apply Nesting.bind_eq_outcome
  intro specs hspecs
  apply Nesting.mapM_eq_outcome
  intro s hs
  rw [h specs (mapError_eq_ok_iff.1 hspecs) s hs]
  cases build s.key with
  | error e => rfl
  | ok g => rfl

/-- A pool whose children come from calls that end as the building of basic generators does. Of
these calls there is none for the key of the pool itself. -/
theorem callPool_eq_outcome {call : String → Nesting G} {f : BasicGenerator X → G}
    (h : ∀ key, key ≠ "pool" → call key = .outcome ((r.buildBasic props key).map f)) :
    (callPool props call : Nesting (Pool G α)) =
      .outcome ((r.buildPool props).map (Pool.withGenerators f)) := by
  unfold callPool buildPool
  apply Nesting.bind_eq_outcome
  intro spec hspec
  apply Nesting.bind_eq_outcome
  intro config hconfig
  apply Nesting.bind_eq_outcome
  intro named hnamed
  by_cases hpool : named.any (·.key == "pool") = true
  · rw [if_pos hpool, if_pos hpool]
    rfl
  · rw [if_neg hpool, if_neg hpool]
    have hchildren : (callAll call spec : Nesting (List (Selector G α))) = .outcome
        ((buildAll (r.buildBasic props) spec).map (List.map (Selector.withGenerator f))) := by
      apply callAll_eq_outcome
      intro specs hspecs s hs
      -- the specification is read a second time, and what is read is the same
      have hsame : specs = named :=
        Except.ok.inj (hspecs.symm.trans (mapError_eq_ok_iff.1 hnamed))
      apply h
      intro hkey
      exact hpool (List.any_eq_true.2 ⟨s, hsame ▸ hs, beq_iff_eq.2 hkey⟩)
    rw [hchildren]
    cases (buildAll (r.buildBasic props) spec :
        Except SearchError (List (Selector (BasicGenerator X) α))) with
    | error e => rfl
    | ok children => rfl

/-- Two calls deep, building a generator is at its end. -/
theorem Extended.call_eq_outcome (h : r.Extended) (depth : Nat) (key : String) :
    (r.call props (depth + 2) key : Nesting (Assembly X α)) =
      .outcome ((r.buildGenerator props key).map Generator.assembly) := by
  unfold buildGenerator
  split
  · rename_i hpool
    have hchildren : ∀ name, name ≠ "pool" →
        (r.call props (depth + 1) name : Nesting (Assembly X α)) =
          .outcome ((r.buildBasic props name).map .basic) := by
      intro name hname
      apply call_of_ne_pool
      intro hfactory
      exact hname (h.eq_pool (mem_of_factory? hfactory))
    rw [call_succ hpool]
    simp only [Factory.make]
    rw [callPool_eq_outcome hchildren]
    cases (r.buildPool props : Except SearchError (Pool (BasicGenerator X) α)) with
    | error e => rfl
    | ok p => rfl
  · rename_i hpool
    rw [call_of_ne_pool hpool]
    cases r.buildBasic props key with
    | error e => rfl
    | ok g => rfl

/-- So is building the selectors of a specification. -/
theorem Extended.callSelectors_eq_outcome (h : r.Extended) (depth : Nat) (spec : String) :
    (r.callSelectors props (depth + 2) spec : Nesting (List (Selector (Assembly X α) α))) =
      .outcome ((r.buildSelectors props spec).map
        (List.map (Selector.withGenerator Generator.assembly))) := by
  unfold callSelectors buildSelectors
  apply callAll_eq_outcome
  intro specs _ s _
  exact h.call_eq_outcome depth s.key

/-- A pool that names a pool is refused, whatever the registry would answer to its calls. -/
theorem callPool_of_names {value : String} (hvalue : props.get? Key.poolNeighbours = some value)
    (hnames : Specification.Names "pool" value) (call : String → Nesting G) :
    (callPool props call : Nesting (Pool G α)) = .outcome (.error (refusal α props value)) := by
  have hrequire : props.require Key.poolNeighbours = .ok value := by
    unfold Properties.require
    rw [hvalue]
  unfold callPool refusal
  rw [hrequire]
  cases HillClimberConfig.ofProperties props with
  | error e => rfl
  | ok config =>
    show (Nesting.outcome (reading (Specification.parse value)) >>= _) = _
    cases hparse : (Specification.parse value : Except ConfigError (List (Specification α))) with
    | error e => rfl
    | ok named =>
      obtain ⟨s, hs, hkey⟩ := (Specification.exists_key_iff_names (by decide) hparse).2 hnames
      have hpool : named.any (·.key == "pool") = true :=
        List.any_eq_true.2 ⟨s, hs, beq_iff_eq.2 hkey⟩
      exact if_pos hpool

/-- What is built from a specification has a generator for every key that the specification
names. -/
theorem exists_of_buildSelectors {selectors : List (Selector (Generator X α) α)} {spec : String}
    (hkey : key ≠ "") (hnames : Specification.Names key spec)
    (h : r.buildSelectors props spec = .ok selectors) :
    ∃ g : Generator X α, r.buildGenerator props key = .ok g := by
  obtain ⟨specs, hspecs, hbuilt⟩ := bind_eq_ok_iff.1 h
  obtain ⟨s, hs, hname⟩ :=
    (Specification.exists_key_iff_names hkey (mapError_eq_ok_iff.1 hspecs)).2 hnames
  obtain ⟨c, hc⟩ := exists_of_mapM_eq_ok hbuilt hs
  obtain ⟨g, hg, -⟩ := bind_eq_ok_iff.1 hc
  exact ⟨g, hname ▸ hg⟩

/-- There are as many selectors as entries of the specification, and so at least one. -/
theorem ne_nil_of_buildAll {build : String → Except SearchError G} {spec : String}
    {selectors : List (Selector G α)} (h : buildAll build spec = .ok selectors) :
    selectors ≠ [] := by
  obtain ⟨specs, hspecs, hbuilt⟩ := bind_eq_ok_iff.1 h
  obtain ⟨-, hne⟩ := Specification.parse_eq_ok_iff.1 (mapError_eq_ok_iff.1 hspecs)
  intro hnil
  apply hne
  rw [← List.length_eq_zero_iff, ← length_of_mapM_eq_ok hbuilt, hnil]
  rfl

theorem children_ne_nil_of_buildPool {p : Pool (BasicGenerator X) α}
    (h : r.buildPool props = .ok p) : p.children ≠ [] := by
  obtain ⟨spec, -, h⟩ := bind_eq_ok_iff.1 h
  obtain ⟨config, -, h⟩ := bind_eq_ok_iff.1 h
  obtain ⟨named, -, h⟩ := bind_eq_ok_iff.1 h
  split at h
  · cases h
  · obtain ⟨children, hchildren, h⟩ := bind_eq_ok_iff.1 h
    cases h
    exact ne_nil_of_buildAll hchildren

/-- The pools among generators that are built and put together: they have children, and none of
these is a pool. -/
theorem children_of_buildSelectors {selectors : List (Selector (Generator X α) α)} {spec : String}
    (h : r.buildSelectors props spec = .ok selectors) {c : Selector (Generator X α) α}
    (hc : c ∈ selectors) {p : Pool (Assembly X α) α} (hp : c.generator.assembly = .pool p) :
    p.children ≠ [] ∧ ∀ child ∈ p.children, ∀ q, child.generator ≠ .pool q := by
  obtain ⟨specs, -, hbuilt⟩ := bind_eq_ok_iff.1 h
  obtain ⟨s, -, hs⟩ := (mem_of_mapM_eq_ok hbuilt).1 hc
  obtain ⟨g, hg, hs⟩ := bind_eq_ok_iff.1 hs
  cases hs
  cases g with
  | basic g => cases hp
  | pool built =>
    cases hp
    have hbuild : r.buildPool props = .ok built := by
      unfold buildGenerator at hg
      split at hg
      · obtain ⟨p, hp, heq⟩ := map_eq_ok_iff.1 hg
        cases heq
        exact hp
      · obtain ⟨g, -, heq⟩ := map_eq_ok_iff.1 hg
        cases heq
    constructor
    · intro hnil
      exact children_ne_nil_of_buildPool hbuild (List.map_eq_nil_iff.1 hnil)
    · intro child hchild q hq
      obtain ⟨c, -, hc⟩ := List.mem_map.1 hchild
      cases hc
      cases hq

/-- Whatever the configuration and whatever generators an application has added, building the
selectors of a specification ends, in a list or an error, with calls of factories that nest at most
two deep: a bound of two and any larger one have the same outcome, that of `buildSelectors`. A pool
whose specification names the pool in any spelling that is read so is an error by its own call
alone, before any call for a child, and so is a specification that names such a pool. Every pool
that is built has children, and none of them is a pool. -/
theorem nested_at_most_two (h : r.Extended) (props : Properties) :
    (∀ spec depth, 2 ≤ depth →
      (r.callSelectors props depth spec : Nesting (List (Selector (Assembly X α) α))) =
        .outcome ((r.buildSelectors props spec).map
          (List.map (Selector.withGenerator Generator.assembly)))) ∧
    (∀ value, props.get? Key.poolNeighbours = some value →
      (∀ specs : List (Specification α), Specification.parse value = .ok specs →
        ((∃ s ∈ specs, s.key = "pool") ↔ Specification.Names "pool" value)) ∧
      (Specification.Names "pool" value → r.factory? "pool" = some .pool →
        (∀ depth, 1 ≤ depth → (r.call props depth "pool" : Nesting (Assembly X α)) =
          .outcome (.error (refusal α props value))) ∧
        ∀ spec, Specification.Names "pool" spec → ∃ e,
          (r.buildSelectors props spec :
            Except SearchError (List (Selector (Generator X α) α))) = .error e)) ∧
    ∀ spec depth (selectors : List (Selector (Assembly X α) α)), 2 ≤ depth →
      r.callSelectors props depth spec = .outcome (.ok selectors) →
      ∀ c ∈ selectors, ∀ p, c.generator = .pool p →
        p.children ≠ [] ∧ ∀ child ∈ p.children, ∀ q, child.generator ≠ .pool q := by
  have hends : ∀ spec depth, 2 ≤ depth →
      (r.callSelectors props depth spec : Nesting (List (Selector (Assembly X α) α))) =
        .outcome ((r.buildSelectors props spec).map
          (List.map (Selector.withGenerator Generator.assembly))) := by
    intro spec depth hdepth
    obtain ⟨d, rfl⟩ := Nat.exists_eq_add_of_le' hdepth
    exact h.callSelectors_eq_outcome d spec
  refine ⟨hends, fun value hvalue => ⟨?_, ?_⟩, ?_⟩
  · intro specs hparse
    exact Specification.exists_key_iff_names (by decide) hparse
  · intro hnames hpool
    have hrefused : ∀ depth, 1 ≤ depth →
        (r.call props depth "pool" : Nesting (Assembly X α)) =
          .outcome (.error (refusal α props value)) := by
      intro depth hdepth
      obtain ⟨d, rfl⟩ := Nat.exists_eq_add_of_le' hdepth
      rw [call_succ hpool]
      simp only [Factory.make]
      rw [callPool_of_names hvalue hnames]
      rfl
    refine ⟨hrefused, ?_⟩
    intro spec hspec
    cases hbuild : (r.buildSelectors props spec :
        Except SearchError (List (Selector (Generator X α) α))) with
    | error e => exact ⟨e, rfl⟩
    | ok selectors =>
      exfalso
      obtain ⟨g, hg⟩ := exists_of_buildSelectors (by decide) hspec hbuild
      have hbuilt : (r.call props 2 "pool" : Nesting (Assembly X α)) =
          .outcome (.ok g.assembly) := by
        rw [h.call_eq_outcome 0, hg]
        rfl
      rw [hrefused 2 (by omega)] at hbuilt
      cases hbuilt
  · intro spec depth selectors hdepth hcalls c hc p hp
    rw [hends spec depth hdepth] at hcalls
    cases hbuild : (r.buildSelectors props spec :
        Except SearchError (List (Selector (Generator X α) α))) with
    | error e =>
      rw [hbuild] at hcalls
      cases hcalls
    | ok built =>
      rw [hbuild] at hcalls
      cases hcalls
      obtain ⟨b, hb, rfl⟩ := List.mem_map.1 hc
      exact children_of_buildSelectors hbuild hb hp

/-- An application with a generator of its own. A pool of it and of changes is built two calls deep
and no less; one that also names the pool, in two spellings, is refused. -/
theorem nested_at_most_two_idle :
    let r := (builtin : Registry Unit).addSelector "idle" (.custom fun _ => .ok ())
    let sound := Dictionary.empty.insert Key.poolNeighbours "change;idle"
    let cyclic := Dictionary.empty.insert Key.poolNeighbours "change;\tpool @ 3;pool"
    r.Extended ∧
    (r.callSelectors sound 1 "pool" =
        (.tooDeep : Nesting (List (Selector (Assembly Unit Float) Float))) ∧
      ∃ (c : Selector (Assembly Unit Float) Float) (p : Pool (Assembly Unit Float) Float),
        r.callSelectors sound 2 "pool" = .outcome (.ok [c]) ∧ c.generator = .pool p ∧
          p.children.map Selector.name = ["change", "idle"] ∧
          ∀ child ∈ p.children, ∀ q, child.generator ≠ .pool q) ∧
    Specification.Names "pool" "change;\tpool @ 3;pool" ∧
    r.call cyclic 1 "pool" = (.outcome (.error nestedPool) : Nesting (Assembly Unit Float)) := by
  intro r sound cyclic
  have hextended : r.Extended := .addSelector .builtin "idle" fun _ => .ok ()
  have hnames : Specification.Names "pool" "change;\tpool @ 3;pool" := by
    refine ⟨"pool".toList, ?_, ?_⟩
    · decide +kernel
    · decide +kernel
  obtain ⟨hends, -, hpools⟩ := nested_at_most_two (α := Float) hextended sound
  obtain ⟨-, hcyclic, -⟩ := nested_at_most_two (α := Float) hextended cyclic
  have hbuilt := hends "pool" 2 le_rfl
  obtain ⟨hrefused, -⟩ := (hcyclic "change;\tpool @ 3;pool" rfl).2 hnames rfl
  have hreason : refusal Float cyclic "change;\tpool @ 3;pool" = nestedPool := by
    decide +kernel
  refine ⟨hextended, ⟨rfl, ?_⟩, hnames, ?_⟩
  · refine ⟨_, _, hbuilt, rfl, rfl, ?_⟩
    exact (hpools "pool" 2 _ le_rfl hbuilt _ List.mem_cons_self _ rfl).2
  · rw [hrefused 1 le_rfl, hreason]

end Registry

end LocalSearch
