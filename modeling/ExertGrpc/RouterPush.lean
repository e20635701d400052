import ExertGrpc.DotNet
import Mathlib.Data.List.Infix

/-! # `Router.push`

The router of the first front end takes its `push` from VueRouter and catches what the
promise is rejected with, so that a navigation to the current location does not count as
an error.  Every other error is meant to be passed on, but the handler drops the promise
it rejects, and returns; and the callbacks of a caller are not handed on at all.

So `push` is what it is meant to be for callers without callbacks, and as long as no
navigation fails.  What a caller observes of VueRouter's own `push` is taken from its
documentation (`VueRouterSpec`).
-/
namespace ExertGrpc

/-! ## Values -/

/-- `s.indexOf(text)` of a string. -/
def indexOf (s text : Text) : Int :=
  match s.tails.findIdx? fun rest => text.isPrefixOf rest with
  | some i => i
  | none => -1

/-- It is negative when the text does not occur. -/
theorem indexOf_neg_iff {s text : Text} : indexOf s text < 0 ↔ ¬ text <:+: s := by
  have hnone : (s.tails.findIdx? fun rest => text.isPrefixOf rest) = none ↔ ¬ text <:+: s := by
    rw [List.findIdx?_eq_none_iff, List.infix_iff_prefix_suffix]
    simp only [List.mem_tails, Bool.eq_false_iff, ne_eq, List.isPrefixOf_iff_prefix]
    constructor
    · rintro h ⟨rest, hprefix, hsuffix⟩
      exact h rest hsuffix hprefix
    · intro h rest hsuffix hprefix
      exact h ⟨rest, hprefix, hsuffix⟩
  rw [← hnone]
  unfold indexOf
  split
  · rename_i i hi
    rw [hi]
    exact ⟨fun h => absurd h (by omega), nofun⟩
  · rename_i hi
    exact ⟨fun _ => hi, fun _ => by omega⟩

/-- The `message` of a value, for what its `indexOf` does: of a string, and of anything
else what a call comes to, with a `TypeError` when there is no such method. -/
inductive Message (V : Type) where
  | string (s : Text)
  | other (indexOf : Except V Int)

/-- What one finds when one looks at a value.  Reading a property can throw; `name` is the
text that the name is loosely equal to, if there is one. -/
inductive View (V : Type) where
  | falsy
  | truthy (name : Except V (Option Text)) (message : Except V (Message V))

/-- The values of the program, up to their identity: `undefined`, the error of a call on
it, and what each value looks like. -/
structure JsValues (V : Type) where
  undefined : V
  typeError : V
  view : V → View V
  undefined_falsy : view undefined = .falsy

variable {V Location : Type}

/-- `message.indexOf(text)`. -/
def Message.indexOf (text : Text) : Message V → Except V Int
  | .string s => .ok (ExertGrpc.indexOf s text)
  | .other indexOf => indexOf

/-! ## Promises and callbacks -/

/-- How a promise is settled. -/
inductive Settled (V : Type) where
  | fulfilled (v : V)
  | rejected (e : V)
deriving DecidableEq, Repr

/-- Which of the callbacks `onComplete` and `onAbort` are given. -/
structure Callbacks where
  onComplete : Bool
  onAbort : Bool
deriving DecidableEq, Repr

/-- No callback is given. -/
def Callbacks.none : Callbacks := ⟨false, false⟩

/-- What a caller of `push` observes: the promise that is returned, the callbacks that are
invoked, with their argument, or an exception. -/
inductive Observed (V : Type) where
  | promised (s : Settled V)
  | called (completed aborted : Option V)
  | threw (e : V)
deriving DecidableEq, Repr

/-- `Promise.reject(e);`, with nobody holding the promise. -/
def promiseReject (e : V) : EStateM V (List V) Unit := modify (· ++ [e])

/-- `promise.catch(handler)`, with the rejections that nobody handles. -/
def Settled.catchWith (handler : V → EStateM V (List V) V) (unhandled : List V) :
    Settled V → Settled V × List V
  | .fulfilled v => (.fulfilled v, unhandled)
  | .rejected e =>
    match handler e unhandled with
    | .ok v unhandled' => (.fulfilled v, unhandled')
    | .error t unhandled' => (.rejected t, unhandled')

/-! ## The code -/

section Code
variable (js : JsValues V)

/-- The test of the handler: `e && e.name != "NavigationDuplicated" &&
e.message.indexOf('redundant') < 0`. -/
def passesOn (e : V) : Except V Bool :=
  match js.view e with
  | .falsy => .ok false
  | .truthy name message => do
    if (← name) = some (literal "NavigationDuplicated") then
      return false
    let i ← (← message).indexOf (literal "redundant")
    return decide (i < 0)

/-- The handler. -/
def onRejected (e : V) : EStateM V (List V) V := do
  if ← MonadExcept.ofExcept (passesOn js e) then
    promiseReject e
  return js.undefined

/-- `push(location)`, called with callbacks that it does not take. -/
def Router.push (superPush : Location → Callbacks → Observed V) (location : Location)
    (_callbacks : Callbacks) (unhandled : List V) : Observed V × List V :=
  match superPush location .none with
  | .promised s => (s.catchWith (onRejected js) unhandled).map .promised id
  | .called .. => (.threw js.typeError, unhandled)
  | .threw e => (.threw e, unhandled)

end Code

/-! ## VueRouter -/

/-- What becomes of a navigation.  `duplicate` is one to the current location; `failure`
is any other that does not arrive, with the value that it ends in. -/
inductive Navigation (V : Type) where
  | success (route : V)
  | duplicate (e : V)
  | failure (e : V)

namespace Navigation

/-- Its promise. -/
def settled : Navigation V → Settled V
  | success route => .fulfilled route
  | duplicate e => .rejected e
  | failure e => .rejected e

/-- The callbacks that it invokes. -/
def called (callbacks : Callbacks) : Navigation V → Observed V
  | success route => .called (if callbacks.onComplete then some route else none) none
  | duplicate e => .called none (if callbacks.onAbort then some e else none)
  | failure e => .called none (if callbacks.onAbort then some e else none)

/-- What a caller observes: a promise, or when there are callbacks, these instead. -/
def observed (callbacks : Callbacks) (n : Navigation V) : Observed V :=
  if callbacks = .none then .promised n.settled else n.called callbacks

end Navigation

/-- The errors of duplicate navigations. -/
def JsValues.IsDuplicated (js : JsValues V) (e : V) : Prop :=
  ∃ name message, js.view e = .truthy (.ok name) message ∧
    (name = some (literal "NavigationDuplicated") ∨
      ∃ s, message = .ok (.string s) ∧ literal "redundant" <:+: s)

/-- What is relied on of `VueRouter.push`. -/
structure VueRouterSpec (js : JsValues V) (superPush : Location → Callbacks → Observed V)
    (navigate : Location → Navigation V) : Prop where
  observed : ∀ location callbacks,
    superPush location callbacks = (navigate location).observed callbacks
  duplicated : ∀ location e, navigate location = .duplicate e → js.IsDuplicated e

/-- What is expected of the override: the caller observes the same, and of a duplicate
navigation what it would of a successful one. -/
def Refines (callbacks : Callbacks) (mine base : Observed V) : Navigation V → Prop
  | .duplicate _ => ∃ v, mine = (Navigation.success v).observed callbacks
  | _ => mine = base

/-- Reading what the test looks at in `e` throws `t`. -/
def JsValues.ReadThrows (js : JsValues V) (e t : V) : Prop :=
  ∃ name message, js.view e = .truthy name message ∧
    (name = .error t ∨ ∃ n, name = .ok n ∧ n ≠ some (literal "NavigationDuplicated") ∧
      (message = .error t ∨ ∃ m, message = .ok m ∧ m.indexOf (literal "redundant") = .error t))

/-! ## What the handler does -/

section Handler
variable {js : JsValues V} {e t : V} {unhandled : List V}

/-- The test throws what reading the value throws. -/
theorem passesOn_eq_error : passesOn js e = .error t ↔ js.ReadThrows e t := by
  unfold passesOn JsValues.ReadThrows
  rcases js.view e with _ | ⟨name, message⟩
  · exact ⟨nofun, fun ⟨_, _, h, _⟩ => nomatch h⟩
  have htruthy : (∃ name' message', View.truthy name message = .truthy name' message' ∧
      (name' = .error t ∨ ∃ n, name' = .ok n ∧ n ≠ some (literal "NavigationDuplicated") ∧
        (message' = .error t ∨
          ∃ m, message' = .ok m ∧ m.indexOf (literal "redundant") = .error t))) ↔
      (name = .error t ∨ ∃ n, name = .ok n ∧ n ≠ some (literal "NavigationDuplicated") ∧
        (message = .error t ∨
          ∃ m, message = .ok m ∧ m.indexOf (literal "redundant") = .error t)) := by
    constructor
    · rintro ⟨_, _, heq, h⟩
      cases heq
      exact h
    · intro h
      exact ⟨name, message, rfl, h⟩
  rw [htruthy, Except.bind_eq_error]
  refine or_congr Iff.rfl (exists_congr fun n => and_congr_right fun _ => ?_)
  by_cases hn : n = some (literal "NavigationDuplicated")
  · rw [if_pos hn]
    exact ⟨nofun, fun h => absurd hn h.1⟩
  · rw [if_neg hn, Except.bind_eq_error, and_iff_right hn]
    refine or_congr Iff.rfl (exists_congr fun m => and_congr_right fun _ => ?_)
    rw [Except.bind_eq_error]
    constructor
    · rintro (h | ⟨i, -, h⟩)
      · exact h
      · cases h
    · exact Or.inl

/-- The error of a duplicate navigation does not pass it. -/
theorem passesOn_of_isDuplicated (h : js.IsDuplicated e) : passesOn js e = .ok false := by
  obtain ⟨name, message, hview, hcase⟩ := h
  rw [passesOn, hview]
  show (if name = some (literal "NavigationDuplicated") then _ else _) = _
  by_cases hname : name = some (literal "NavigationDuplicated")
  · rw [if_pos hname]
    rfl
  · rw [if_neg hname]
    obtain ⟨s, rfl, hinfix⟩ := hcase.resolve_left hname
    have hneg : ¬ indexOf s (literal "redundant") < 0 := fun hlt => indexOf_neg_iff.mp hlt hinfix
    show Except.ok (decide (indexOf s (literal "redundant") < 0)) = _
    rw [decide_eq_false hneg]

/-- Unless reading the value throws, the handler returns `undefined`, whatever the test
says; the rejection that it makes is one that nobody handles. -/
theorem onRejected_ok {b : Bool} (h : passesOn js e = .ok b) :
    onRejected js e unhandled =
      .ok js.undefined (if b then unhandled ++ [e] else unhandled) := by
  unfold onRejected
  rw [h]
  cases b <;> rfl

theorem onRejected_error (h : passesOn js e = .error t) :
    onRejected js e unhandled = .error t unhandled := by
  unfold onRejected
  rw [h]
  rfl

end Handler

/-! ## What a caller observes -/

section Push
variable {js : JsValues V} {superPush : Location → Callbacks → Observed V}
  {navigate : Location → Navigation V} (hspec : VueRouterSpec js superPush navigate)
  {location : Location} {callbacks : Callbacks} {unhandled : List V}
include hspec

/-- Whatever callbacks are given, the caller gets a promise, and it is that of the
navigation with the handler behind it. -/
theorem push_eq : Router.push js superPush location callbacks unhandled =
    ((navigate location).settled.catchWith (onRejected js) unhandled).map .promised id := by
  have hsuper : superPush location .none = .promised (navigate location).settled := by
    rw [hspec.observed]
    exact if_pos rfl
  rw [Router.push, hsuper]

/-- A failing navigation is fulfilled with `undefined`; when its value is one that the code
means to pass on, that is a rejection that nobody handles. -/
theorem push_failure {e : V} {b : Bool} (hnavigate : navigate location = .failure e)
    (hread : passesOn js e = .ok b) :
    Router.push js superPush location callbacks unhandled =
      (.promised (.fulfilled js.undefined), if b then unhandled ++ [e] else unhandled) := by
  rw [push_eq hspec, hnavigate]
  show Prod.map _ _ (match onRejected js e unhandled with | .ok v u => _ | .error t u => _) = _
  rw [onRejected_ok hread]
  rfl

/-- A caller that gives callbacks observes something else. -/
theorem not_refines_of_callbacks (hgiven : callbacks ≠ .none) :
    ¬ Refines callbacks (Router.push js superPush location callbacks unhandled).1
      (superPush location callbacks) (navigate location) := by
  have hcalled : ∀ n : Navigation V, n.observed callbacks = n.called callbacks :=
    fun _ => if_neg hgiven
  rw [push_eq hspec, hspec.observed, hcalled]
  intro h
  rcases hn : navigate location with route | e | e <;> rw [hn] at h
  · cases h
  · obtain ⟨v, h⟩ := h
    rw [hcalled] at h
    cases h
  · cases h

/-- For a caller that gives none, only failures matter. -/
theorem refines_none_iff :
    Refines .none (Router.push js superPush location .none unhandled).1
      (superPush location .none) (navigate location) ↔
      ∀ e, navigate location = .failure e → js.ReadThrows e e := by
  have hpromised : ∀ n : Navigation V, n.observed .none = .promised n.settled :=
    fun _ => if_pos rfl
  rw [hspec.observed, hpromised]
  rcases hn : navigate location with route | e | e
  · rw [push_eq hspec, hn]
    exact ⟨fun _ => nofun, fun _ => rfl⟩
  · refine ⟨fun _ => nofun, fun _ => ⟨js.undefined, ?_⟩⟩
    have hread := passesOn_of_isDuplicated (hspec.duplicated location e hn)
    rw [push_eq hspec, hn, hpromised]
    show Observed.promised (Settled.catchWith _ _ (.rejected e)).1 = _
    rw [Settled.catchWith, onRejected_ok hread]
    rfl
  · have hall : (∀ e', Navigation.failure e = .failure e' → js.ReadThrows e' e') ↔
        js.ReadThrows e e := by
      constructor
      · exact fun h => h e rfl
      · rintro h _ heq
        cases heq
        exact h
    rw [hall, ← passesOn_eq_error]
    rcases hread : passesOn js e with t | b
    · -- the caller gets what reading the value throws
      rw [push_eq hspec, hn]
      show Observed.promised (Settled.catchWith _ _ (.rejected e)).1 = .promised (.rejected e) ↔ _
      rw [Settled.catchWith, onRejected_error hread]
      constructor
      · intro h
        rw [Settled.rejected.inj (Observed.promised.inj h)]
      · intro h
        rw [Except.error.inj h]
    · rw [push_failure hspec hn hread]
      exact ⟨nofun, nofun⟩

/-- **`push` is what it is meant to be exactly for the callers without callbacks whose
navigation succeeds or is a duplicate**, or fails with a value that throws itself when its
name or message is read: for every location, every choice of callbacks and every outcome
of the navigation. -/
theorem routerPush_refines_iff :
    Refines callbacks (Router.push js superPush location callbacks unhandled).1
      (superPush location callbacks) (navigate location) ↔
      callbacks = .none ∧ ∀ e, navigate location = .failure e → js.ReadThrows e e := by
  by_cases hgiven : callbacks = .none
  · subst hgiven
    rw [refines_none_iff hspec, and_iff_right rfl]
  · constructor
    · exact fun h => absurd h (not_refines_of_callbacks hspec hgiven)
    · exact fun h => absurd h.1 hgiven

end Push

/-! ## Navigations whose outcome is lost -/

/-- The values of a small program: a route, the error of a duplicate navigation, a guard's
`new Error("no")`, and one thrown as a string. -/
inductive DemoValue where
  | undefined
  | typeError
  | route
  | duplicated
  | no
  | thrown
deriving DecidableEq, Repr

def demoView : DemoValue → View DemoValue
  | .undefined => .falsy
  | .typeError => .truthy (.ok (some (literal "TypeError"))) (.ok (.string (literal "undefined")))
  | .route => .truthy (.ok none) (.ok (.other (.error .typeError)))
  | .duplicated =>
    .truthy (.ok (some (literal "NavigationDuplicated")))
      (.ok (.string (literal "Avoided redundant navigation to current location")))
  | .no => .truthy (.ok (some (literal "Error"))) (.ok (.string (literal "no")))
  | .thrown => .truthy (.ok none) (.ok (.other (.error .typeError)))

def demoJs : JsValues DemoValue := ⟨.undefined, .typeError, demoView, rfl⟩

/-- One page can be gone to, one is the current one, and two are guarded. -/
def demoNavigate (location : Text) : Navigation DemoValue :=
  if location = literal "/" then .duplicate .duplicated
  else if location = literal "/no" then .failure .no
  else if location = literal "/thrown" then .failure .thrown
  else .success .route

def demoPush (location : Text) (callbacks : Callbacks) : Observed DemoValue :=
  (demoNavigate location).observed callbacks

theorem demoPush_spec : VueRouterSpec demoJs demoPush demoNavigate where
  observed _ _ := rfl
  duplicated location e h := by
    unfold demoNavigate at h
    split at h
    · cases h
      exact ⟨_, _, rfl, Or.inl rfl⟩
    · split at h
      · cases h
      · split at h <;> cases h

theorem routerPush_refines_demo :
    Refines .none (Router.push demoJs demoPush (literal "/") .none []).1
      (demoPush (literal "/") .none) (demoNavigate (literal "/")) ↔
      Callbacks.none = .none ∧
        ∀ e, demoNavigate (literal "/") = .failure e → demoJs.ReadThrows e e :=
  routerPush_refines_iff demoPush_spec

/-- **A guard's error is fulfilled**, and one without a message comes as another error; and
a caller that waits for `onComplete` waits for ever. -/
theorem routerPush_not_refines :
    VueRouterSpec demoJs demoPush demoNavigate ∧
    (demoPush (literal "/no") .none = .promised (.rejected .no) ∧
      Router.push demoJs demoPush (literal "/no") .none [] =
        (.promised (.fulfilled .undefined), [.no])) ∧
    (demoPush (literal "/thrown") .none = .promised (.rejected .thrown) ∧
      Router.push demoJs demoPush (literal "/thrown") .none [] =
        (.promised (.rejected .typeError), [])) ∧
    (demoPush (literal "/home") ⟨true, true⟩ = .called (some .route) none ∧
      Router.push demoJs demoPush (literal "/home") ⟨true, true⟩ [] =
        (.promised (.fulfilled .route), [])) ∧
    ¬ (∀ location callbacks, Refines callbacks
      (Router.push demoJs demoPush location callbacks []).1
      (demoPush location callbacks) (demoNavigate location)) := by
  refine ⟨demoPush_spec, ⟨by decide, by decide +kernel⟩, ⟨by decide, by decide +kernel⟩,
    ⟨by decide, by decide +kernel⟩, fun h => ?_⟩
  have hno : (Router.push demoJs demoPush (literal "/no") .none []).1 =
      demoPush (literal "/no") .none := h (literal "/no") .none
  exact absurd hno (by decide +kernel)

end ExertGrpc
