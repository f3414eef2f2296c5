import GophProfile.Breaker
import GophProfile.Library.Streak
import GophProfile.World

/-! What opens a breaker: calls of `Do` one after another, within the timeout, on a
fresh breaker. -/
namespace GophProfile

open Effect

/-! ### One call -/

/-- One call of `Do`: whether its function was run, what it returned, and the reasons
the observer was told. -/
structure Done where
  ran : Bool
  returned : Except Err Unit
  observed : List GoString

namespace Breaker

variable (b : Breaker)

/-- `Do` of a function that returns `outcome` if it is run. -/
def doCall (state : BreakerState) (outcome : Except Err Unit) : Done × BreakerState :=
  if state.opened then (after false (.error .openState),state)
  else (after true outcome,state.afterRequest (b.classify outcome))
where
  /-- What `Do` makes of the answer of `Execute`. -/
  after (ran : Bool) : Except Err Unit → Done
    | .ok () => ⟨ran,.ok (),[]⟩
    | .error err =>
      if err.is .openState then ⟨ran,rejection rejectOpen,[rejectOpen]⟩
      else if err.is .tooManyRequests then ⟨ran,rejection rejectProbing,[rejectProbing]⟩
      else ⟨ran,.error err,[]⟩
  rejection (reason : GoString) : Except Err Unit :=
    .error (.errorf "%s (%s): %w" [b.dependency.name,reason] .unavailable)

theorem after_ran (ran : Bool) (answer : Except Err Unit) : (doCall.after b ran answer).ran = ran := by
  unfold doCall.after
  repeat' split
  all_goals rfl

/-- The breaker after a sequence of calls. -/
def afterCalls (state : BreakerState) (outcomes : List (Except Err Unit)) : BreakerState :=
  outcomes.foldl (fun state outcome => (b.doCall state outcome).2) state

/-- A call of the program is a call as above: it runs the function at most once, between
the two questions to the breaker, and then tells the observer. -/
structure Shows (fn : Prog (Except Err Unit)) (performs : (c : Call) → World → c.Answer → World → Prop)
    (w : World) (calls : Called) (outcome : Except Err Unit) (done : Done) : Prop where
  ran : done.ran = true → ∃ inner after, Runs performs fn w inner outcome after ∧
    calls = ⟨.allow b.dependency,(.ok () : Except Err Unit)⟩ :: inner ++
      ⟨.report b.dependency (b.classify outcome),()⟩ ::
        done.observed.map fun reason => ⟨.breakerRejected b.dependency reason,()⟩
  refused : done.ran = false →
    calls = ⟨.allow b.dependency,(.error .openState : Except Err Unit)⟩ ::
      done.observed.map fun reason => ⟨.breakerRejected b.dependency reason,()⟩

/-- What a call does to the world. -/
def Performs (c : Call) (w : World) (answer : c.Answer) (w' : World) : Prop :=
  ∃ choice, World.perform c choice w = some (answer,w')

theorem performs_allow {d : Dependency} {w w' : World} {answer : Except Err Unit}
    (performed : Performs (.allow d) w answer w') :
    answer = (if (w.breakers d).opened then .error .openState else .ok ()) ∧ w' = w := by
  obtain ⟨choice,done⟩ := performed
  cases choice with
  | ok pick =>
    cases pick <;> simp [World.perform,World.effect] at done
    exact ⟨done.1.symm,done.2.symm⟩
  | fail took pick err => simp [World.perform,World.failed] at done

theorem performs_report {d : Dependency} {outcome : Outcome} {w w' : World} {answer : Unit}
    (performed : Performs (.report d outcome) w answer w') :
    w'.breakers d = (w.breakers d).afterRequest outcome := by
  obtain ⟨choice,done⟩ := performed
  cases choice with
  | ok pick =>
    cases pick <;> simp [World.perform,World.effect] at done
    rw [← done]
    simp
  | fail took pick err => simp [World.perform,World.failed] at done

theorem performs_breakerRejected {d : Dependency} {reason : GoString} {w w' : World} {answer : Unit}
    (performed : Performs (.breakerRejected d reason) w answer w') : w' = w := by
  obtain ⟨choice,done⟩ := performed
  cases choice with
  | ok pick =>
    cases pick <;> simp [World.perform,World.effect] at done
    exact done.symm
  | fail took pick err => simp [World.perform,World.failed] at done

/-- What `Do` does with the answer of `Execute`. -/
def conclude : Except Err Unit → Prog (Except Err Unit)
  | .ok value => return .ok value
  | .error err =>
    if err.is .openState then call.rejected b rejectOpen
    else if err.is .tooManyRequests then call.rejected b rejectProbing
    else return .error err

theorem call_eq (fn : Prog (Except Err Unit)) :
    Breaker.call (some b) fn = b.execute fn >>= b.conclude := by
  show b.execute fn >>= _ = b.execute fn >>= _
  congr 1
  funext answer
  cases answer <;> rfl

variable {b} {w w' : World} {calls : Called} {result : Except Err Unit}

theorem conclude_runs {answer : Except Err Unit} (ran : Bool)
    (run : Runs Performs (b.conclude answer) w calls result w') :
    result = (doCall.after b ran answer).returned ∧ w'.breakers = w.breakers ∧
      calls = (doCall.after b ran answer).observed.map
        fun reason => ⟨.breakerRejected b.dependency reason,()⟩ := by
  have told : ∀ {reason}, Runs Performs (call.rejected b reason) w calls result w' →
      result = doCall.rejection b reason ∧ w'.breakers = w.breakers ∧
        calls = [⟨.breakerRejected b.dependency reason,()⟩] := by
    intro reason run
    cases run with
    | call performed rest =>
      cases rest
      rw [performs_breakerRejected performed]
      exact ⟨rfl,rfl,rfl⟩
  unfold conclude at run
  unfold doCall.after
  cases answer with
  | ok value =>
    cases run
    exact ⟨rfl,rfl,rfl⟩
  | error err =>
    simp only at run ⊢
    by_cases opened : err.is .openState = true
    · rw [if_pos opened] at run ⊢
      exact told run
    by_cases probing : err.is .tooManyRequests = true
    · rw [if_neg opened,if_pos probing] at run ⊢
      exact told run
    · rw [if_neg opened,if_neg probing] at run ⊢
      cases run
      exact ⟨rfl,rfl,rfl⟩

theorem call_doCall {fn : Prog (Except Err Unit)}
    (leaves : ∀ inner outcome after, Runs Performs fn w inner outcome after →
      after.breakers b.dependency = w.breakers b.dependency)
    (run : Runs Performs (Breaker.call (some b) fn) w calls result w') :
    ∃ outcome, let done := b.doCall (w.breakers b.dependency) outcome
      b.Shows fn Performs w calls outcome done.1 ∧ result = done.1.returned ∧
        w'.breakers b.dependency = done.2 := by
  rw [call_eq] at run
  obtain ⟨answer,middle,first,second,executed,concluded,rfl⟩ := run.bind_split
  cases executed with
  | call allowed rest =>
    obtain ⟨admission,same⟩ := performs_allow allowed
    rw [same] at rest
    by_cases opened : (w.breakers b.dependency).opened = true
    · rw [if_pos opened] at admission
      subst admission
      cases rest
      obtain ⟨returned,kept,observed⟩ := conclude_runs false concluded
      refine ⟨.ok (),?_⟩
      simp only [doCall,opened,if_true]
      exact ⟨⟨by simp [after_ran],fun _ => by rw [observed]; rfl⟩,returned,by rw [kept]⟩
    · rw [if_neg opened] at admission
      subst admission
      have admitted : Runs Performs (fn >>= fun outcome =>
          request (.report b.dependency (b.classify (outcome.map fun _ => ()))) >>= fun _ =>
            pure outcome) w _ answer middle := rest
      obtain ⟨outcome,after,inner,reports,ran,reported,rfl⟩ := admitted.bind_split
      cases reported with
      | call counted finish =>
        cases finish
        obtain ⟨returned,kept,observed⟩ := conclude_runs true concluded
        have counts : answer.map (fun _ => ()) = answer := by cases answer <;> rfl
        refine ⟨answer,?_⟩
        simp only [doCall,opened,if_false,Bool.false_eq_true]
        refine ⟨⟨fun _ => ⟨inner,after,ran,?_⟩,by simp [after_ran]⟩,returned,?_⟩
        · rw [observed,counts]
          simp
        · rw [kept,performs_report counted,leaves _ _ _ ran,counts]

/-! ### Sequences of calls -/

def fails (b : Breaker) (outcome : Except Err Unit) : Bool := b.classify outcome == .failure

def succeeds (b : Breaker) (outcome : Except Err Unit) : Bool := b.classify outcome == .success

/-- Some segment of the sequence has `k` failures and no success. -/
def Streak (b : Breaker) (k : Nat) (outcomes : List (Except Err Unit)) : Prop :=
  ∃ segment, segment <:+: outcomes ∧ (∀ outcome ∈ segment, b.succeeds outcome = false) ∧
    segment.countP b.fails = k

variable {k : Nat} {outcomes : List (Except Err Unit)}

theorem afterCalls_snoc {state : BreakerState} {outcome : Except Err Unit} :
    b.afterCalls state (outcomes ++ [outcome]) = (b.doCall (b.afterCalls state outcomes) outcome).2 := by
  simp [afterCalls]

/-- The counter of the breaker is that of the streaks. -/
theorem afterRequest_counter (state : BreakerState) (outcome : Except Err Unit) :
    (state.afterRequest (b.classify outcome)).consecutiveFailures =
      Streak.next b.fails b.succeeds state.consecutiveFailures outcome := by
  unfold Streak.next fails succeeds
  cases b.classify outcome <;> rfl

/-- What a fresh breaker knows of the calls so far. -/
structure Knows (b : Breaker) (k : Nat) (outcomes : List (Except Err Unit)) (state : BreakerState) :
    Prop where
  threshold : state.failureThreshold = k
  opened : state.opened = true ↔ b.Streak k outcomes
  counter : state.opened = false →
    state.consecutiveFailures = Streak.counter b.fails b.succeeds outcomes

theorem Knows.fresh (positive : 1 ≤ k) : b.Knows k [] (.fresh k) where
  threshold := rfl
  opened := by
    constructor
    · intro opened
      contradiction
    · intro streak
      exact absurd streak (Streak.not_contains_nil positive)
  counter _ := rfl

theorem Knows.doCall (positive : 1 ≤ k) {state : BreakerState} (known : b.Knows k outcomes state)
    (outcome : Except Err Unit) : b.Knows k (outcomes ++ [outcome]) (b.doCall state outcome).2 := by
  by_cases opened : state.opened = true
  · have streak : b.Streak k (outcomes ++ [outcome]) := Streak.Contains.snoc (known.opened.mp opened)
    simp only [Breaker.doCall,opened,if_true]
    exact ⟨known.threshold,by simp [opened,streak],by simp [opened]⟩
  · have closed : state.opened = false := by simpa using opened
    have counter : (state.afterRequest (b.classify outcome)).consecutiveFailures =
        Streak.counter b.fails b.succeeds (outcomes ++ [outcome]) := by
      rw [afterRequest_counter,known.counter closed,Streak.counter_snoc]
    have none : ¬b.Streak k outcomes := by
      rw [← known.opened]
      exact opened
    have below : state.consecutiveFailures < k := by
      by_contra reached
      rw [known.counter closed] at reached
      exact none (Streak.contains_of_le (by omega))
    have trips : (state.afterRequest (b.classify outcome)).opened = true ↔
        k ≤ (state.afterRequest (b.classify outcome)).consecutiveFailures := by
      cases b.classify outcome with
      | success => simp [BreakerState.afterRequest,closed]; omega
      | failure => simp [BreakerState.afterRequest,closed,known.threshold]
      | excluded => simp [BreakerState.afterRequest,closed]; omega
    have threshold : (state.afterRequest (b.classify outcome)).failureThreshold = k := by
      rw [← known.threshold]
      cases b.classify outcome <;> rfl
    simp only [Breaker.doCall,closed,if_false,Bool.false_eq_true]
    refine ⟨threshold,?_,fun _ => counter⟩
    rw [trips,counter]
    constructor
    · intro reached
      exact Streak.contains_of_le reached
    · intro streak
      exact (Streak.contains_snoc.mp streak).resolve_left none

/-- A fresh breaker is open after a sequence of calls if and only if some segment of it
has as many failures as the threshold and no success. -/
theorem opened_iff_streak (positive : 1 ≤ k) (outcomes : List (Except Err Unit)) :
    (b.afterCalls (.fresh k) outcomes).opened = true ↔ b.Streak k outcomes := by
  have known : b.Knows k outcomes (b.afterCalls (.fresh k) outcomes) := by
    induction outcomes using List.reverseRecOn with
    | nil => exact .fresh positive
    | append_singleton outcomes outcome ih =>
      rw [afterCalls_snoc]
      exact ih.doCall positive outcome
  exact known.opened

/-! ### What the callers see -/

/-- The function was run, and its answer handed on. -/
def HandsOn (outcome : Except Err Unit) (done : Done) : Prop :=
  done.ran = true ∧ done.returned = outcome ∧ done.observed = []

/-- The function was not run: the dependency counts as unavailable, and the observer is
told once. -/
def TurnsAway (done : Done) : Prop :=
  done.ran = false ∧ (∃ err, done.returned = .error err ∧ err.is .unavailable = true) ∧
    done.observed.length = 1

/-- An error that `Do` takes for one of its own rejections. -/
def LooksRejected (outcome : Except Err Unit) : Prop :=
  ∃ err, outcome = .error err ∧ (err.is .openState = true ∨ err.is .tooManyRequests = true)

theorem turnsAway_of_opened {state : BreakerState} (opened : state.opened = true)
    (outcome : Except Err Unit) : TurnsAway (b.doCall state outcome).1 := by
  have rejected : (b.doCall state outcome).1 =
      ⟨false,doCall.rejection b rejectOpen,[rejectOpen]⟩ := by
    simp only [doCall,opened,if_true]
    rfl
  rw [rejected]
  exact ⟨rfl,⟨_,rfl,by rfl⟩,rfl⟩

/-- A call that runs its function hands on its answer, except where the answer looks
like a rejection. -/
theorem handsOn_iff {state : BreakerState} (closed : state.opened = false)
    (outcome : Except Err Unit) :
    HandsOn outcome (b.doCall state outcome).1 ↔ ¬LooksRejected outcome := by
  have seen : (b.doCall state outcome).1 = doCall.after b true outcome := by
    simp [doCall,closed]
  rw [seen]
  cases outcome with
  | ok value => simp [doCall.after,HandsOn,LooksRejected]
  | error err =>
    by_cases opened : err.is .openState = true
    · simp [doCall.after,HandsOn,LooksRejected,opened]
    by_cases probing : err.is .tooManyRequests = true
    · simp [doCall.after,HandsOn,LooksRejected,opened,probing]
    · simp [doCall.after,HandsOn,LooksRejected,opened,probing]

/-- The calls of a sequence, as promised: until a streak of failures is complete they hand
on what their functions answer, and all later ones are turned away. -/
def AsPromised (b : Breaker) (k : Nat) (outcomes : List (Except Err Unit)) : Prop :=
  ∀ before outcome, before ++ [outcome] <+: outcomes →
    (¬b.Streak k before → HandsOn outcome (b.doCall (b.afterCalls (.fresh k) before) outcome).1) ∧
    (b.Streak k before → TurnsAway (b.doCall (b.afterCalls (.fresh k) before) outcome).1)

/-- A breaker opens on a streak of failures and on nothing else, and answers its callers
accordingly, just when no function that is run fails with an error of the breaker's own. -/
theorem do_streak_iff (b : Breaker) {k : Nat} (positive : 1 ≤ k) (outcomes : List (Except Err Unit)) :
    (((b.afterCalls (.fresh k) outcomes).opened = true ↔ b.Streak k outcomes) ∧
      b.AsPromised k outcomes) ↔
      ∀ before outcome, before ++ [outcome] <+: outcomes → ¬b.Streak k before →
        ¬LooksRejected outcome := by
  have state : ∀ before, (b.afterCalls (.fresh k) before).opened = true ↔ b.Streak k before :=
    opened_iff_streak positive
  have closed : ∀ before, ¬b.Streak k before → (b.afterCalls (.fresh k) before).opened = false := by
    intro before none
    rw [← state] at none
    simpa using none
  constructor
  · rintro ⟨_,promised⟩ before outcome part none
    exact (handsOn_iff (closed before none) outcome).mp ((promised before outcome part).1 none)
  · intro own
    refine ⟨state outcomes,?_⟩
    intro before outcome part
    constructor
    · intro none
      exact (handsOn_iff (closed before none) outcome).mpr (own before outcome part none)
    · intro streak
      exact turnsAway_of_opened ((state before).mpr streak) outcome

/-- Two failures with a client in between that has gone away. -/
theorem do_streak_iff_s3 :
    ((((⟨.s3,none⟩ : Breaker).afterCalls (.fresh 2)
        [.error .deadlineExceeded,.error .canceled,.error .deadlineExceeded,.ok ()]).opened = true ↔
        (⟨.s3,none⟩ : Breaker).Streak 2
          [.error .deadlineExceeded,.error .canceled,.error .deadlineExceeded,.ok ()]) ∧
      (⟨.s3,none⟩ : Breaker).AsPromised 2
        [.error .deadlineExceeded,.error .canceled,.error .deadlineExceeded,.ok ()]) ↔
      ∀ before outcome, before ++ [outcome] <+:
          [.error .deadlineExceeded,.error .canceled,.error .deadlineExceeded,.ok ()] →
        ¬(⟨.s3,none⟩ : Breaker).Streak 2 before → ¬LooksRejected outcome :=
  do_streak_iff ⟨.s3,none⟩ (by decide) _

/-- A function that fails with the rejection of another breaker, on a closed one. -/
theorem nested_rejection_hidden :
    ¬∀ (b : Breaker) (k : Nat), 1 ≤ k → ∀ outcomes,
      ((b.afterCalls (.fresh k) outcomes).opened = true ↔ b.Streak k outcomes) ∧
        b.AsPromised k outcomes := by
  intro all
  have quiet : ¬(⟨.s3,none⟩ : Breaker).Streak 3 [] := Streak.not_contains_nil (by decide)
  have handed := ((all ⟨.s3,none⟩ 3 (by decide) [.error .openState]).2 [] (.error .openState)
    List.prefix_rfl).1 quiet
  have observed := handed.2.2
  revert observed
  decide

end Breaker

end GophProfile
