import GophProfile.Domain
import GophProfile.Library.Transition

/-! The readiness endpoint: any number of requests at a time, each of which probes all
components in parallel, and the switch that takes the process out of balancing. -/
namespace GophProfile.Health

open Domain Transition

def statusOK : GoString := lit "ok"
def statusDown : GoString := lit "down"
def statusDraining : GoString := lit "draining"
def componentUnavailable : GoString := lit "component unavailable"

structure ComponentHealth where
  status : GoString
  latencyMS : Int64
  error : GoString
  detail : GoString
  deriving DecidableEq

structure HealthHandler where
  /-- The names of the checkers. -/
  checkers : List GoString
  version : GoString
  exposeError : Bool

/-- What `make` fills a slice with. -/
def ComponentHealth.zero : ComponentHealth := ⟨[],0,[],[]⟩

/-- A response and its status code. -/
inductive Answer where
  | status (code : Nat) (status version : GoString) (uptimeS : Int64)
  | health (code : Nat) (status : GoString) (components : List (GoString × ComponentHealth))
      (version : GoString) (uptimeS : Int64)

section
variable (text : Err → GoString) (h : HealthHandler)

def live (uptimeS : Int64) : Answer := .status 200 statusOK h.version uptimeS

def refusal (uptimeS : Int64) : Answer := .status 503 statusDraining h.version uptimeS

/-- `probe`, from what the check returned and how long it took. -/
def probe (exposeError : Bool) (err : Except Err Unit) (latencyMS : Int64) : ComponentHealth :=
  match err with
  | .ok () => ⟨statusOK,latencyMS,[],[]⟩
  | .error e => ⟨statusDown,latencyMS,if exposeError then text e else componentUnavailable,text e⟩

/-- The response while the results are gone through. -/
structure Summary where
  components : List (GoString × ComponentHealth)
  status : GoString
  code : Nat

def tally (s : Summary) (c : GoString × ComponentHealth) : Summary where
  components := assign s.components c.1 c.2
  status := if c.2.status ≠ statusOK then statusDown else s.status
  code := if c.2.status ≠ statusOK then 503 else s.code

def summarize (results : List ComponentHealth) : Summary :=
  (h.checkers.zip results).foldl tally ⟨[],statusOK,200⟩

def report (s : Summary) (uptimeS : Int64) : Answer := .health s.code s.status s.components h.version uptimeS

/-- A request: the results so far and the goroutines that the wait group still counts. -/
inductive Request where
  | probing (results : List ComponentHealth) (running : List Nat)
  | answered (a : Answer)

structure State where
  draining : Bool
  requests : Nat → Option Request

inductive Action where
  | drain
  | live (slot : Nat) (uptimeS : Int64)
  | ready (slot : Nat) (uptimeS : Int64)
  | probed (slot i : Nat) (err : Except Err Unit) (latencyMS : Int64)
  | respond (slot : Nat) (uptimeS : Int64)

def State.initial : State := ⟨false,fun _ => none⟩

def State.set (s : State) (slot : Nat) (r : Request) : State :=
  { s with requests := fun other => if other = slot then some r else s.requests other }

def step (s : State) : Action → Option State
  | .drain => some { s with draining := true }
  | .live slot uptimeS =>
    match s.requests slot with
    | none => some (s.set slot (.answered (live h uptimeS)))
    | some _ => none
  | .ready slot uptimeS =>
    match s.requests slot with
    | none =>
      if s.draining then some (s.set slot (.answered (refusal h uptimeS)))
      else some (s.set slot (.probing (.replicate h.checkers.length .zero) (.range h.checkers.length)))
    | some _ => none
  | .probed slot i err latencyMS =>
    match s.requests slot with
    | some (.probing results running) =>
      if i ∈ running then
        some (s.set slot (.probing (results.set i (probe text h.exposeError err latencyMS)) (running.erase i)))
      else none
    | _ => none
  | .respond slot uptimeS =>
    match s.requests slot with
    | some (.probing results []) => some (s.set slot (.answered (report h (summarize h results) uptimeS)))
    | _ => none

abbrev Trace := List (State × Action × State)

end

variable {text : Err → GoString} {h : HealthHandler}

@[simp] theorem set_draining (s : State) (slot : Nat) (r : Request) : (s.set slot r).draining = s.draining := rfl

/-! ### What a response says -/

/-- The outcome of one check and how long it took. -/
abbrev Outcome := Except Err Unit × Int64

/-- The response to what the checks returned, in the order of the checkers. -/
structure Reports (text : Err → GoString) (h : HealthHandler) (outcomes : List Outcome) (s : Summary) : Prop where
  fine : (∀ o ∈ outcomes, o.1 = .ok ()) → s.code = 200 ∧ s.status = statusOK
  failing : (∃ o ∈ outcomes, o.1 ≠ .ok ()) → s.code = 503 ∧ s.status = statusDown
  component : ∀ name, s.components.lookup name =
    ((h.checkers.zip outcomes).reverse.lookup name).map fun o => probe text h.exposeError o.1 o.2
  hidden : h.exposeError = false → ∀ c ∈ s.components, c.2.error = [] ∨ c.2.error = componentUnavailable

/-- The step of the trace that set the result of one component. -/
def Probed (trace : Trace) (slot i : Nat) (o : Outcome) : Prop :=
  ∃ entry ∈ trace, entry.2.1 = .probed slot i o.1 o.2

def Begun (trace : Trace) (slot : Nat) (draining : Bool) : Prop :=
  ∃ entry ∈ trace, ∃ uptimeS, entry.2.1 = .ready slot uptimeS ∧ entry.1.draining = draining

/-- The goroutines that are done have each left the result of their own check. -/
structure Probing (text : Err → GoString) (h : HealthHandler) (trace : Trace) (slot : Nat)
    (results : List ComponentHealth) (running : List Nat) : Prop where
  begun : Begun trace slot false
  length : results.length = h.checkers.length
  unique : running.Nodup
  left : ∀ i < h.checkers.length, i ∉ running → ∃ o : Outcome, Probed trace slot i o ∧
    results[i]? = some (probe text h.exposeError o.1 o.2)

/-- Where a response comes from. -/
inductive Answered (text : Err → GoString) (h : HealthHandler) (trace : Trace) (slot : Nat) : Answer → Prop
  | live (uptimeS : Int64) : Answered text h trace slot (live h uptimeS)
  | refused (uptimeS : Int64) (begun : Begun trace slot true) :
      Answered text h trace slot (refusal h uptimeS)
  | reported (uptimeS : Int64) (begun : Begun trace slot false) {outcomes : List Outcome}
      (each : outcomes.length = h.checkers.length)
      (probed : ∀ i o, outcomes[i]? = some o → Probed trace slot i o) {s : Summary}
      (reports : Reports text h outcomes s) : Answered text h trace slot (report h s uptimeS)

def Request.Known (text : Err → GoString) (h : HealthHandler) (trace : Trace) (slot : Nat) : Request → Prop
  | .probing results running => Probing text h trace slot results running
  | .answered a => Answered text h trace slot a

theorem Probed.more {trace : Trace} {slot i : Nat} {o : Outcome} (probed : Probed trace slot i o)
    (entry : State × Action × State) : Probed (trace ++ [entry]) slot i o := by
  obtain ⟨old,member,same⟩ := probed
  exact ⟨old,List.mem_append_left _ member,same⟩

theorem Begun.more {trace : Trace} {slot : Nat} {draining : Bool} (begun : Begun trace slot draining)
    (entry : State × Action × State) : Begun (trace ++ [entry]) slot draining := by
  obtain ⟨old,member,same⟩ := begun
  exact ⟨old,List.mem_append_left _ member,same⟩

theorem Request.Known.more {trace : Trace} {slot : Nat} {r : Request} (known : r.Known text h trace slot)
    (entry : State × Action × State) : r.Known text h (trace ++ [entry]) slot := by
  cases r with
  | probing results running =>
    exact ⟨known.begun.more entry,known.length,known.unique,fun i inside done =>
      let ⟨o,probed,same⟩ := known.left i inside done
      ⟨o,probed.more entry,same⟩⟩
  | answered a =>
    cases known with
    | live uptimeS => exact .live uptimeS
    | refused uptimeS begun => exact .refused uptimeS (begun.more entry)
    | reported uptimeS begun each probed reports =>
      exact .reported uptimeS (begun.more entry) each (fun i o here => (probed i o here).more entry) reports

/-- When no goroutine is left, the results are those of all the checks. -/
theorem Probing.results {trace : Trace} {slot : Nat} {results : List ComponentHealth}
    (known : Probing text h trace slot results []) :
    ∃ outcomes : List Outcome, outcomes.length = h.checkers.length ∧
      (∀ i o, outcomes[i]? = some o → Probed trace slot i o) ∧
      results = outcomes.map fun o => probe text h.exposeError o.1 o.2 := by
  have each (i : Fin h.checkers.length) := known.left i i.isLt List.not_mem_nil
  choose outcome probed same using each
  refine ⟨List.ofFn outcome,List.length_ofFn,?_,?_⟩
  · intro i o here
    obtain ⟨inside,rfl⟩ := List.getElem?_eq_some_iff.mp here
    rw [List.getElem_ofFn]
    exact probed ⟨i,by simpa using inside⟩
  · apply List.ext_getElem?
    intro i
    by_cases inside : i < h.checkers.length
    · rw [same ⟨i,inside⟩]
      simp [inside]
    · have short : results.length ≤ i := by
        rw [known.length]
        omega
      rw [List.getElem?_eq_none short]
      simp [inside]

/-- One request is under way at the switch, and the next comes behind it. -/
def sampleActions : List Action :=
  [.ready 0 1,.probed 0 1 (.error .unavailable) 7,.drain,.probed 0 0 (.ok ()) 3,.ready 1 3,.respond 0 4]

end GophProfile.Health
