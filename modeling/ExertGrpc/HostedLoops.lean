import ExertGrpc.TransitionVariant

/-! # Services that go round a loop in one host

A service looks at the head of its loop whether it is cancelled, and then makes the
calls of its body in turn.  A call that throws ends the round.  If the body is guarded,
by a `try` inside the loop, the service is back at the head; otherwise the service has
faulted.

A host runs any number of such services side by side.  When it is to stop it cancels
their tokens, one after the other and at any pace, and a service notices when it comes to
its head.  Whether a service that faults stops the host is a setting of the host.
-/
open TransitionRun

/-- A service: the calls of its body, and whether a `try` in the loop guards them. -/
structure LoopService (κ : Type) where
  body : List κ
  guarded : Bool

/-- Where a service is. -/
inductive LoopPosition (κ : Type) where
  | head
  | calling (rest : List κ)
  | ended
  | faulted
deriving DecidableEq, Repr

/-- A service in its loop: where it is, whether its token is cancelled, and the calls it
has made, each with whether it threw. -/
structure LoopState (κ : Type) where
  position : LoopPosition κ
  cancelled : Bool
  made : List (κ × Bool)

/-- A step of a service: at the head, one call, or from the end of the body to the head. -/
inductive LoopStep where
  | enter
  | call (threw : Bool)
  | next
deriving DecidableEq, Repr

/-- The steps that a service has left at most once its token is cancelled. -/
def LoopPosition.rank {κ : Type} : LoopPosition κ → Nat
  | .head => 1
  | .calling rest => rest.length + 2
  | .ended | .faulted => 0

/-- Whether the service has faulted. -/
def LoopPosition.isFaulted {κ : Type} : LoopPosition κ → Bool
  | .faulted => true
  | .head | .calling _ | .ended => false

theorem LoopPosition.isFaulted_iff {κ : Type} {p : LoopPosition κ} :
    p.isFaulted = true ↔ p = .faulted := by
  cases p <;> simp [isFaulted]

/-- The steps that a service has left at most when it begins no round, the cancelling of its
token included. -/
def LoopState.stepsLeft {κ : Type} (l : LoopState κ) : Nat :=
  l.position.rank + if l.cancelled then 0 else 1

/-- The service takes no more steps. -/
def LoopPosition.Over {κ : Type} : LoopPosition κ → Prop
  | .ended | .faulted => True
  | _ => False

/-- The service with its token cancelled. -/
def LoopState.cancel {κ : Type} (l : LoopState κ) : LoopState κ := { l with cancelled := true }

namespace LoopService
variable {κ : Type} {service : LoopService κ} {l m : LoopState κ} {a : LoopStep} {k : κ}

/-- One step of a service. -/
def step (service : LoopService κ) (l : LoopState κ) : LoopStep → Option (LoopState κ)
  | .enter =>
    match l.position with
    | .head => some { l with position := if l.cancelled then .ended else .calling service.body }
    | _ => none
  | .call threw =>
    match l.position with
    | .calling (k :: rest) => some { l with
        position :=
          if threw then (if service.guarded then .head else .faulted) else .calling rest
        made := l.made ++ [(k, threw)] }
    | _ => none
  | .next =>
    match l.position with
    | .calling [] => some { l with position := .head }
    | _ => none

/-- Every step a service can take. -/
inductive Steps (service : LoopService κ) (l m : LoopState κ) : Prop
  | ends (position : l.position = .head) (cancelled : l.cancelled = true)
      (eq : m = { l with position := .ended })
  | enters (position : l.position = .head) (cancelled : l.cancelled = false)
      (eq : m = { l with position := .calling service.body })
  | calls (k : κ) (rest : List κ) (position : l.position = .calling (k :: rest))
      (eq : m = { l with position := .calling rest, made := l.made ++ [(k, false)] })
  | caught (k : κ) (rest : List κ) (position : l.position = .calling (k :: rest))
      (guarded : service.guarded = true)
      (eq : m = { l with position := .head, made := l.made ++ [(k, true)] })
  | faults (k : κ) (rest : List κ) (position : l.position = .calling (k :: rest))
      (guarded : service.guarded = false)
      (eq : m = { l with position := .faulted, made := l.made ++ [(k, true)] })
  | goesOn (position : l.position = .calling []) (eq : m = { l with position := .head })

theorem steps_of_step (h : service.step l a = some m) : service.Steps l m := by
  cases a with
  | enter =>
    simp only [step] at h
    split at h
    · cases hc : l.cancelled with
      | true => exact .ends ‹_› hc (by rw [← Option.some.inj h, hc, if_pos rfl])
      | false => exact .enters ‹_› hc (by rw [← Option.some.inj h, hc]; rfl)
    · cases h
  | call threw =>
    simp only [step] at h
    split at h
    · rename_i k rest hposition
      cases threw with
      | false => exact .calls k rest hposition (Option.some.inj h).symm
      | true =>
        cases hg : service.guarded with
        | true => exact .caught k rest hposition hg (by rw [← Option.some.inj h, hg]; rfl)
        | false => exact .faults k rest hposition hg (by rw [← Option.some.inj h, hg]; rfl)
    · cases h
  | next =>
    simp only [step] at h
    split at h
    · exact .goesOn ‹_› (Option.some.inj h).symm
    · cases h

/-! ## The rounds of a service -/

/-- The calls of a round that goes through. -/
def completeRound (calls : List κ) : List (κ × Bool) := calls.map fun k => (k, false)

/-- The calls of a round in which one threw. -/
def BrokenRound (body : List κ) (calls : List (κ × Bool)) : Prop :=
  ∃ done k rest, body = done ++ k :: rest ∧ calls = completeRound done ++ [(k, true)]

/-- The calls of the round that the service is in. -/
def Current (service : LoopService κ) : LoopPosition κ → List (κ × Bool) → Prop
  | .head, calls | .ended, calls => calls = []
  | .calling rest, calls => ∃ done, service.body = done ++ rest ∧ calls = completeRound done
  | .faulted, calls => service.guarded = false ∧ BrokenRound service.body calls

/-- What a service has made: whole rounds, of which only a guarded service has broken
ones, and then the round it is in. -/
def InRounds (service : LoopService κ) (l : LoopState κ) : Prop :=
  ∃ (rounds : List (List (κ × Bool))) (current : List (κ × Bool)),
    l.made = rounds.flatten ++ current ∧
    (∀ r ∈ rounds, r = completeRound service.body ∨
      service.guarded = true ∧ BrokenRound service.body r) ∧
    service.Current l.position current

theorem inRounds_of_whole {rounds : List (List (κ × Bool))} {round : List (κ × Bool)}
    (hmade : m.made = rounds.flatten ++ round)
    (hrounds : ∀ r ∈ rounds, r = completeRound service.body ∨
      service.guarded = true ∧ BrokenRound service.body r)
    (hround : round = completeRound service.body ∨
      service.guarded = true ∧ BrokenRound service.body round)
    (hhead : m.position = .head) : service.InRounds m := by
  refine ⟨rounds ++ [round], [], ?_, fun r hr => ?_, ?_⟩
  · simp [hmade]
  · rcases List.mem_append.mp hr with hr | hr
    · exact hrounds r hr
    · rw [List.mem_singleton.mp hr]
      exact hround
  · rw [hhead]
    rfl

/-- A step keeps what is made in rounds. -/
theorem Steps.inRounds (h : service.Steps l m) (hl : service.InRounds l) :
    service.InRounds m := by
  obtain ⟨rounds, current, hmade, hrounds, hcurrent⟩ := hl
  cases h with
  | ends position cancelled eq =>
    rw [position] at hcurrent
    subst eq
    exact ⟨rounds, current, hmade, hrounds, hcurrent⟩
  | enters position cancelled eq =>
    rw [position] at hcurrent
    subst eq
    exact ⟨rounds, current, hmade, hrounds, [], rfl, hcurrent⟩
  | calls k rest position eq =>
    rw [position] at hcurrent
    obtain ⟨done, hbody, rfl⟩ := hcurrent
    subst eq
    refine ⟨rounds, completeRound (done ++ [k]), ?_, hrounds, done ++ [k], ?_, rfl⟩
    · simp [hmade, completeRound]
    · rw [hbody, List.append_assoc, List.singleton_append]
  | caught k rest position guarded eq =>
    rw [position] at hcurrent
    obtain ⟨done, hbody, rfl⟩ := hcurrent
    subst eq
    refine inRounds_of_whole ?_ hrounds
      (.inr ⟨guarded, done, k, rest, hbody, rfl⟩) rfl
    rw [hmade, List.append_assoc]
  | faults k rest position guarded eq =>
    rw [position] at hcurrent
    obtain ⟨done, hbody, rfl⟩ := hcurrent
    subst eq
    refine ⟨rounds, completeRound done ++ [(k, true)], ?_, hrounds, guarded, done, k, rest,
      hbody, rfl⟩
    rw [hmade, List.append_assoc]
  | goesOn position eq =>
    rw [position] at hcurrent
    obtain ⟨done, hbody, rfl⟩ := hcurrent
    subst eq
    rw [List.append_nil] at hbody
    exact inRounds_of_whole hmade hrounds (.inl (by rw [hbody])) rfl

/-- A service that has ended or faulted takes no step. -/
theorem Steps.not_over (h : service.Steps l m) : ¬ l.position.Over := by
  cases h with
  | ends position | enters position | calls k rest position | caught k rest position
  | faults k rest position | goesOn position =>
    rw [position]
    exact id

/-- With its token cancelled, every step of a service brings it nearer to its end. -/
theorem Steps.rank_lt (h : service.Steps l m) (hc : l.position = .head → l.cancelled = true) :
    m.position.rank < l.position.rank := by
  cases h with
  | ends position cancelled eq =>
    subst eq
    rw [position, LoopPosition.rank, LoopPosition.rank]
    omega
  | enters position cancelled eq =>
    rw [hc position] at cancelled
    cases cancelled
  | calls k rest position eq =>
    subst eq
    rw [position, LoopPosition.rank, LoopPosition.rank, List.length_cons]
    omega
  | caught k rest position guarded eq =>
    subst eq
    rw [position, LoopPosition.rank, LoopPosition.rank, List.length_cons]
    omega
  | faults k rest position guarded eq =>
    subst eq
    rw [position, LoopPosition.rank, LoopPosition.rank, List.length_cons]
    omega
  | goesOn position eq =>
    subst eq
    rw [position, LoopPosition.rank, LoopPosition.rank, List.length_nil]
    omega

variable (service) in
/-- A service that is not over has a step to take. -/
theorem exists_step (h : ¬ l.position.Over) : ∃ a m, service.step l a = some m := by
  cases hposition : l.position with
  | head =>
    refine ⟨.enter, ?_⟩
    simp only [step, hposition]
    exact ⟨_, rfl⟩
  | calling rest =>
    by_cases hrest : rest = []
    · refine ⟨.next, ?_⟩
      simp only [step, hposition, hrest]
      exact ⟨_, rfl⟩
    · obtain ⟨k, rest, rfl⟩ := List.exists_cons_of_ne_nil hrest
      refine ⟨.call false, ?_⟩
      simp only [step, hposition]
      exact ⟨_, rfl⟩
  | ended | faulted =>
    rw [hposition] at h
    exact absurd trivial h

/-- A step of a service leaves its token alone. -/
theorem Steps.cancelled_eq (h : service.Steps l m) : m.cancelled = l.cancelled := by
  cases h <;> subst_vars <;> rfl

/-- A service ends only when its token is cancelled. -/
theorem Steps.cancelled_of_ended (h : service.Steps l m) (hm : m.position = .ended) :
    m.cancelled = true := by
  cases h with
  | ends position cancelled eq =>
    subst eq
    exact cancelled
  | enters position cancelled eq | calls k rest position eq | caught k rest position guarded eq
  | faults k rest position guarded eq | goesOn position eq =>
    subst eq
    cases hm

theorem not_mem_completeRound {calls : List κ} : (k, true) ∉ completeRound calls := by
  simp [completeRound]

/-- What is left of a round is not more than the body. -/
theorem InRounds.rank_le (h : service.InRounds l) :
    l.position.rank ≤ service.body.length + 2 := by
  obtain ⟨rounds, current, -, -, hcurrent⟩ := h
  cases hposition : l.position with
  | calling rest =>
    rw [hposition] at hcurrent
    obtain ⟨done, hbody, -⟩ := hcurrent
    rw [hbody, LoopPosition.rank, List.length_append]
    omega
  | head | ended | faulted =>
    rw [LoopPosition.rank]
    omega

/-- A call in a sequence of rounds is a call of one of them. -/
theorem exists_round {β : Type} {rounds : List (List β)} {pre post : List β} {x : β}
    (h : rounds.flatten = pre ++ x :: post) :
    ∃ before after, before ++ x :: after ∈ rounds ∧ before <:+ pre := by
  rcases List.flatten_eq_append_iff.mp h with ⟨as, bs, rfl, rfl, hbs⟩ |
    ⟨as, before, c, cs, ds, rfl, rfl, hds⟩
  · obtain ⟨empties, after, rest, rfl, -, -⟩ := List.cons_eq_flatten_iff.mp hbs
    exact ⟨[], after, by simp, List.nil_suffix⟩
  · rw [List.cons_append] at hds
    obtain ⟨rfl, -⟩ := List.cons.inj hds
    exact ⟨before, cs, by simp, List.suffix_append _ _⟩

/-- The calls of a round are those of the body, and only the last one may have thrown. -/
structure RoundOf (body : List κ) (calls : List (κ × Bool)) : Prop where
  order : calls.map Prod.fst <+: body
  through : ∀ x ∈ calls.dropLast, x.2 = false

@[simp] theorem map_fst_completeRound (done : List κ) :
    (completeRound done).map Prod.fst = done := by
  simp [completeRound, Function.comp_def]

theorem roundOf_complete {body done : List κ} (h : done <+: body) :
    RoundOf body (completeRound done) := by
  refine ⟨?_, fun x hx => ?_⟩
  · rwa [map_fst_completeRound]
  · obtain ⟨k, -, rfl⟩ := List.mem_map.mp (List.mem_of_mem_dropLast hx)
    rfl

theorem BrokenRound.roundOf {body : List κ} {calls : List (κ × Bool)}
    (h : BrokenRound body calls) : RoundOf body calls := by
  obtain ⟨done, k, rest, rfl, rfl⟩ := h
  refine ⟨⟨rest, by simp⟩, fun x hx => ?_⟩
  rw [List.dropLast_concat] at hx
  obtain ⟨k', -, rfl⟩ := List.mem_map.mp hx
  rfl

theorem Current.roundOf {position : LoopPosition κ} {calls : List (κ × Bool)}
    (h : service.Current position calls) : RoundOf service.body calls := by
  cases position with
  | head | ended =>
    rw [show calls = [] from h]
    exact ⟨List.nil_prefix, fun x hx => absurd hx List.not_mem_nil⟩
  | calling rest =>
    obtain ⟨done, hbody, rfl⟩ := h
    exact roundOf_complete ⟨rest, hbody.symm⟩
  | faulted => exact h.2.roundOf

/-- **Before a call come those before it in the body, in the same round, and all of them
went through.** -/
theorem InRounds.preceded (h : service.InRounds l) {done rest : List κ}
    (hbody : service.body = done ++ k :: rest) (hnodup : service.body.Nodup)
    {pre post : List (κ × Bool)} {threw : Bool} (hmade : l.made = pre ++ (k, threw) :: post) :
    completeRound done <:+ pre := by
  obtain ⟨rounds, current, hrounds, hround, hcurrent⟩ := h
  have hall : (rounds ++ [current]).flatten = pre ++ (k, threw) :: post := by
    rw [← hmade, hrounds]
    simp
  obtain ⟨before, after, hmem, hsuffix⟩ := exists_round hall
  have hof : RoundOf service.body (before ++ (k, threw) :: after) := by
    rcases List.mem_append.mp hmem with hmem | hmem
    · rcases hround _ hmem with heq | ⟨-, hbroken⟩
      · rw [heq]
        exact roundOf_complete List.prefix_rfl
      · exact hbroken.roundOf
    · rw [List.mem_singleton.mp hmem]
      exact hcurrent.roundOf
  -- the body has the call once, so what comes before it there is what was called
  have hdone : before.map Prod.fst = done := by
    obtain ⟨tail, htail⟩ := hof.order
    rw [List.map_append, List.map_cons, List.append_assoc, List.cons_append, hbody] at htail
    rw [hbody] at hnodup
    rw [← htail] at hnodup
    have hbefore : k ∉ before.map Prod.fst := fun hk =>
      List.disjoint_of_nodup_append hnodup hk List.mem_cons_self
    have hafter : k ∉ after.map Prod.fst ++ tail :=
      (List.nodup_cons.mp hnodup.of_append_right).1
    exact ((List.append_cons_inj_of_notMem hbefore hafter).mp htail).1
  have hthrough : completeRound done = before := calc
    completeRound done = before.map fun x => (x.1, false) := by
      rw [← hdone, completeRound, List.map_map, Function.comp_def]
    _ = before.map id := List.map_congr_left fun x hx => by
      have hx' : x ∈ (before ++ (k, threw) :: after).dropLast := by
        rw [List.dropLast_append_cons]
        exact List.mem_append_left _ hx
      rw [id, ← hof.through x hx']
    _ = before := List.map_id before
  rw [hthrough]
  exact hsuffix

/-- A service that no `try` guards has faulted exactly when one of its calls threw. -/
theorem InRounds.faulted_iff (h : service.InRounds l) (hg : service.guarded = false) :
    l.position = .faulted ↔ ∃ k, (k, true) ∈ l.made := by
  obtain ⟨rounds, current, hmade, hrounds, hcurrent⟩ := h
  constructor
  · intro hposition
    rw [hposition] at hcurrent
    obtain ⟨-, done, k, rest, -, rfl⟩ := hcurrent
    exact ⟨k, by simp [hmade]⟩
  · rintro ⟨k, hk⟩
    rw [hmade] at hk
    rcases List.mem_append.mp hk with hk | hk
    · -- all rounds before the last one went through
      obtain ⟨r, hr, hkr⟩ := List.mem_flatten.mp hk
      rcases hrounds r hr with rfl | ⟨hguarded, -⟩
      · exact absurd hkr not_mem_completeRound
      · rw [hg] at hguarded
        cases hguarded
    · cases hposition : l.position with
      | faulted => rfl
      | head | ended =>
        rw [hposition] at hcurrent
        rw [show current = [] from hcurrent] at hk
        cases hk
      | calling rest =>
        rw [hposition] at hcurrent
        obtain ⟨done, -, rfl⟩ := hcurrent
        exact absurd hk not_mem_completeRound

theorem InRounds.not_faulted (h : service.InRounds l) (hg : service.guarded = true) :
    l.position ≠ .faulted := by
  obtain ⟨rounds, current, -, -, hcurrent⟩ := h
  intro hposition
  rw [hposition] at hcurrent
  obtain ⟨hguarded, -⟩ := hcurrent
  rw [hg] at hguarded
  cases hguarded

end LoopService

/-! ## The host -/

/-- A host: whether it is to stop, and its services. -/
structure LoopHost (ι κ : Type) where
  stopping : Bool
  loop : ι → LoopState κ

/-- A step of the host: one of a service, the order to stop, or the cancelling of a
token. -/
inductive HostStep (ι : Type) where
  | service (i : ι) (a : LoopStep)
  | stop
  | cancel (i : ι)
deriving DecidableEq, Repr

namespace LoopHost
variable {ι κ : Type} [DecidableEq ι] {stopOnFault : Bool} {service : ι → LoopService κ}
variable {s t : LoopHost ι κ} {i : ι} {a : LoopStep}

/-- One step.  `stopOnFault` says whether a service that faults stops the host. -/
def step (stopOnFault : Bool) (service : ι → LoopService κ) (s : LoopHost ι κ) :
    HostStep ι → Option (LoopHost ι κ)
  | .service i a => ((service i).step (s.loop i) a).map fun l =>
      { stopping := s.stopping || (stopOnFault && l.position.isFaulted)
        loop := Function.update s.loop i l }
  | .stop => if s.stopping then none else some { s with stopping := true }
  | .cancel i =>
    if s.stopping && !(s.loop i).cancelled then
      some { s with loop := Function.update s.loop i (s.loop i).cancel }
    else none

/-- The services have been started. -/
def initial : LoopHost ι κ where
  stopping := false
  loop _ := { position := .head, cancelled := false, made := [] }

theorem service_eq_some (h : step stopOnFault service s (.service i a) = some t) :
    ∃ l, (service i).Steps (s.loop i) l ∧ t.loop = Function.update s.loop i l ∧
      (t.stopping = true ↔
        s.stopping = true ∨ stopOnFault = true ∧ l.position = .faulted) := by
  obtain ⟨l, hl, rfl⟩ := Option.map_eq_some_iff.mp h
  refine ⟨l, LoopService.steps_of_step hl, rfl, ?_⟩
  rw [Bool.or_eq_true, Bool.and_eq_true, LoopPosition.isFaulted_iff]

theorem stop_eq_some (h : step stopOnFault service s .stop = some t) :
    s.stopping = false ∧ t = { s with stopping := true } := by
  simp only [step] at h
  split at h
  · cases h
  · exact ⟨by simpa using ‹¬ s.stopping = true›, (Option.some.inj h).symm⟩

theorem cancel_eq_some (h : step stopOnFault service s (.cancel i) = some t) :
    s.stopping = true ∧ (s.loop i).cancelled = false ∧
      t = { s with loop := Function.update s.loop i (s.loop i).cancel } := by
  simp only [step] at h
  split at h
  · rename_i hcancel
    simp only [Bool.and_eq_true, Bool.not_eq_true'] at hcancel
    exact ⟨hcancel.1, hcancel.2, (Option.some.inj h).symm⟩
  · cases h

/-! ## What holds in every run -/

variable (stopOnFault service) in
/-- The invariant of every run. -/
structure Sound (s : LoopHost ι κ) : Prop where
  inRounds : ∀ i, (service i).InRounds (s.loop i)
  ended : ∀ i, (s.loop i).position = .ended → (s.loop i).cancelled = true
  cancelled : ∀ i, (s.loop i).cancelled = true → s.stopping = true
  faulted : ∀ i, stopOnFault = true → (s.loop i).position = .faulted → s.stopping = true

omit [DecidableEq ι] in
theorem initial_sound : Sound stopOnFault service (initial : LoopHost ι κ) where
  inRounds _ := ⟨[], [], rfl, fun _ hr => absurd hr List.not_mem_nil, rfl⟩
  ended _ h := by cases h
  cancelled _ h := by cases h
  faulted _ _ h := by cases h

/-- What holds of every service after the service `i` has become `l`, when it holds of `l`
and held of the others. -/
theorem forall_update {P : ι → LoopState κ → Prop} {loop : ι → LoopState κ} {l : LoopState κ}
    (hl : P i l) (hloop : ∀ j, P j (loop j)) (j : ι) : P j (Function.update loop i l j) := by
  by_cases hji : j = i
  · subst hji
    rw [Function.update_self]
    exact hl
  · rw [Function.update_of_ne hji]
    exact hloop j

theorem step_sound (s : LoopHost ι κ) (a : HostStep ι) (t : LoopHost ι κ)
    (hs : Sound stopOnFault service s) (h : step stopOnFault service s a = some t) :
    Sound stopOnFault service t := by
  cases a with
  | service i a =>
    obtain ⟨l, hl, hloop, hstopping⟩ := service_eq_some h
    have hkeep : s.stopping = true → t.stopping = true := fun hs => hstopping.mpr (.inl hs)
    constructor
    · rw [hloop]
      exact forall_update (P := fun j l => (service j).InRounds l) (hl.inRounds (hs.inRounds i))
        hs.inRounds
    · rw [hloop]
      exact forall_update (P := fun _ l => l.position = .ended → l.cancelled = true)
        hl.cancelled_of_ended hs.ended
    · rw [hloop]
      refine forall_update (P := fun _ l => l.cancelled = true → t.stopping = true)
        (fun hc => ?_) fun j hc => hkeep (hs.cancelled j hc)
      rw [hl.cancelled_eq] at hc
      exact hkeep (hs.cancelled i hc)
    · rw [hloop]
      exact forall_update (P := fun _ l => stopOnFault = true → l.position = .faulted →
        t.stopping = true) (fun hstop hf => hstopping.mpr (.inr ⟨hstop, hf⟩))
        fun j hstop hf => hkeep (hs.faulted j hstop hf)
  | stop =>
    obtain ⟨-, rfl⟩ := stop_eq_some h
    exact ⟨hs.inRounds, hs.ended, fun _ _ => rfl, fun _ _ _ => rfl⟩
  | cancel i =>
    obtain ⟨hstopping, -, rfl⟩ := cancel_eq_some h
    constructor
    · exact forall_update (P := fun j l => (service j).InRounds l) (hs.inRounds i) hs.inRounds
    · exact forall_update (P := fun _ l => l.position = .ended → l.cancelled = true)
        (fun _ => rfl) hs.ended
    · exact fun _ _ => hstopping
    · exact fun _ _ _ => hstopping

/-- A service that has faulted stays so. -/
theorem step_faulted {a : HostStep ι} (h : step stopOnFault service s a = some t)
    (hi : (s.loop i).position = .faulted) : (t.loop i).position = .faulted := by
  cases a with
  | service j a =>
    obtain ⟨l, hl, hloop, -⟩ := service_eq_some h
    have hij : i ≠ j := by
      rintro rfl
      refine hl.not_over ?_
      rw [hi]
      trivial
    rw [hloop, Function.update_of_ne hij]
    exact hi
  | stop =>
    obtain ⟨-, rfl⟩ := stop_eq_some h
    exact hi
  | cancel j =>
    obtain ⟨-, -, rfl⟩ := cancel_eq_some h
    by_cases hij : i = j
    · subst hij
      dsimp only
      rw [Function.update_self]
      exact hi
    · dsimp only
      rw [Function.update_of_ne hij]
      exact hi

/-- What one step does to the order to stop. -/
theorem step_stopping {a : HostStep ι} (h : step stopOnFault service s a = some t) :
    t.stopping = true → s.stopping = true ∨ a = .stop ∨
      stopOnFault = true ∧ ∃ i, (t.loop i).position = .faulted := by
  intro ht
  cases a with
  | service i a =>
    obtain ⟨l, -, hloop, hstopping⟩ := service_eq_some h
    rcases hstopping.mp ht with hs | ⟨hstop, hf⟩
    · exact .inl hs
    · refine .inr (.inr ⟨hstop, i, ?_⟩)
      rw [hloop, Function.update_self]
      exact hf
  | stop => exact .inr (.inl rfl)
  | cancel i => exact .inl (cancel_eq_some h).1

/-- Nothing takes back the order to stop. -/
theorem step_keeps_stopping {a : HostStep ι} (h : step stopOnFault service s a = some t)
    (hs : s.stopping = true) : t.stopping = true := by
  cases a with
  | service i a =>
    obtain ⟨l, -, -, hstopping⟩ := service_eq_some h
    exact hstopping.mpr (.inl hs)
  | stop =>
    obtain ⟨-, rfl⟩ := stop_eq_some h
    rfl
  | cancel i =>
    obtain ⟨-, -, rfl⟩ := cancel_eq_some h
    exact hs

/-- **Why a host stops**: it was told to, or, if that is its setting, a service has
faulted. -/
theorem stopping_iff {as : List (HostStep ι)} (hs : Sound stopOnFault service s)
    (hrun : run (step stopOnFault service) s as = some t) :
    t.stopping = true ↔ s.stopping = true ∨ .stop ∈ as ∨
      stopOnFault = true ∧ ∃ i, (t.loop i).position = .faulted := by
  have ht : Sound stopOnFault service t := run_keeps step_sound hs hrun
  constructor
  · intro hstopping
    induction as generalizing s with
    | nil =>
      rw [run_nil] at hrun
      rw [Option.some.inj hrun]
      exact .inl hstopping
    | cons a as ih =>
      obtain ⟨u, hu, hrest⟩ := run_cons.mp hrun
      rcases ih (step_sound s a u hs hu) hrest with hu' | hmem | hfault
      · rcases step_stopping hu hu' with hs' | rfl | ⟨hstop, i, hi⟩
        · exact .inl hs'
        · exact .inr (.inl List.mem_cons_self)
        · -- the service that has faulted is still there at the end
          refine .inr (.inr ⟨hstop, i, ?_⟩)
          exact run_keeps (I := fun s => (s.loop i).position = .faulted)
            (fun _ _ _ hi h => step_faulted h hi) hi hrest
      · exact .inr (.inl (List.mem_cons_of_mem a hmem))
      · exact .inr (.inr hfault)
  · rintro (hs' | hmem | ⟨hstop, i, hi⟩)
    · exact run_keeps (I := fun s : LoopHost ι κ => s.stopping = true)
        (fun _ _ _ hi h => step_keeps_stopping h hi) hs' hrun
    · obtain ⟨bs, cs, rfl⟩ := List.append_of_mem hmem
      obtain ⟨u, -, hrest⟩ := run_append.mp hrun
      obtain ⟨v, hv, hrest⟩ := run_cons.mp hrest
      obtain ⟨-, rfl⟩ := stop_eq_some hv
      exact run_keeps (I := fun s : LoopHost ι κ => s.stopping = true)
        (fun _ _ _ hi h => step_keeps_stopping h hi) rfl hrest
    · exact ht.faulted i hstop hi

/-! ## The host comes to an end -/

/-- Every service has ended or faulted. -/
def Over (s : LoopHost ι κ) : Prop := ∀ i, (s.loop i).position.Over

/-- No service begins a round whose token is not cancelled. -/
def Winds (s : LoopHost ι κ) : HostStep ι → Prop
  | .service i _ => (s.loop i).position = .head → (s.loop i).cancelled = true
  | .stop | .cancel _ => True

section Ends
variable [Fintype ι]

/-- The steps that are left at most when no service begins another round. -/
def stepsLeft (s : LoopHost ι κ) : Nat :=
  (if s.stopping then 0 else 1) + ∑ i, (s.loop i).stepsLeft

theorem step_stepsLeft_lt (s : LoopHost ι κ) (a : HostStep ι) (t : LoopHost ι κ)
    (hwinds : s.Winds a) (h : step stopOnFault service s a = some t) :
    t.stepsLeft < s.stepsLeft := by
  unfold stepsLeft
  cases a with
  | service i a =>
    obtain ⟨l, hl, hloop, -⟩ := service_eq_some h
    have hnearer : l.stepsLeft < (s.loop i).stepsLeft := by
      have hrank := hl.rank_lt hwinds
      unfold LoopState.stepsLeft
      rw [hl.cancelled_eq]
      omega
    have hsum := sum_rank_update_lt (fun _ => LoopState.stepsLeft) hnearer
    rw [← hloop] at hsum
    by_cases hs : s.stopping = true
    · rw [if_pos hs, if_pos (step_keeps_stopping h hs)]
      omega
    · rw [if_neg hs]
      split <;> omega
  | stop =>
    obtain ⟨hs, rfl⟩ := stop_eq_some h
    rw [hs]
    simp
  | cancel i =>
    obtain ⟨hs, hc, rfl⟩ := cancel_eq_some h
    have hnearer : (s.loop i).cancel.stepsLeft < (s.loop i).stepsLeft := by
      simp [LoopState.stepsLeft, LoopState.cancel, hc]
    exact Nat.add_lt_add_left (sum_rank_update_lt (fun _ => LoopState.stepsLeft) hnearer) _

variable (stopOnFault service) in
omit [Fintype ι] in
/-- Where a service is not over, there is a step that begins no round. -/
theorem exists_winds (h : ¬ s.Over) :
    ∃ a t, s.Winds a ∧ step stopOnFault service s a = some t := by
  unfold Over at h
  push Not at h
  obtain ⟨i, hi⟩ := h
  by_cases hround : (s.loop i).position = .head ∧ (s.loop i).cancelled = false
  · -- the service is at its head: its token is cancelled, or the host told to stop
    obtain ⟨-, hc⟩ := hround
    cases hs : s.stopping with
    | true =>
      refine ⟨.cancel i, ?_⟩
      simp only [step, hs, hc]
      exact ⟨_, trivial, rfl⟩
    | false =>
      refine ⟨.stop, ?_⟩
      simp only [step, hs]
      exact ⟨_, trivial, rfl⟩
  · obtain ⟨a, l, hl⟩ := (service i).exists_step hi
    refine ⟨.service i a, ?_⟩
    simp only [step, hl]
    refine ⟨_, fun hhead => ?_, rfl⟩
    by_contra hc
    exact hround ⟨hhead, by simpa using hc⟩

variable (stopOnFault service) in
/-- **From wherever it is, a host can be wound down**: without another round, in a bounded
number of steps, until every service is over. -/
theorem winds_down (s : LoopHost ι κ) :
    (∃ as t, run (step stopOnFault service) s as = some t ∧
      Along (step stopOnFault service) Winds s as ∧ t.Over) ∧
    ∀ as t, run (step stopOnFault service) s as = some t →
      Along (step stopOnFault service) Winds s as → as.length ≤ s.stepsLeft := by
  have hkeep : ∀ (s : LoopHost ι κ) a t, True → step stopOnFault service s a = some t → True :=
    fun _ _ _ _ _ => trivial
  have hlt : ∀ (s : LoopHost ι κ) a t, True → s.Winds a →
      step stopOnFault service s a = some t → t.stepsLeft < s.stepsLeft :=
    fun s a t _ => step_stepsLeft_lt s a t
  refine ⟨?_, fun as t hrun hwinds => run_length_le hkeep hlt trivial hwinds hrun⟩
  exact exists_run_of_progress hkeep hlt (fun s _ hnot => exists_winds stopOnFault service hnot)
    (trivial : (fun _ => True) s)

omit [DecidableEq ι] in
/-- However long a host has run, what is left for it to do is bounded by its services. -/
theorem Sound.stepsLeft_le (hs : Sound stopOnFault service s) :
    s.stepsLeft ≤ 1 + ∑ i, ((service i).body.length + 3) := by
  have hsum : ∑ i, (s.loop i).stepsLeft ≤ ∑ i, ((service i).body.length + 3) := by
    refine Finset.sum_le_sum fun i _ => ?_
    have hrank := (hs.inRounds i).rank_le
    unfold LoopState.stepsLeft
    split <;> omega
  unfold stepsLeft
  split <;> omega

end Ends
end LoopHost
