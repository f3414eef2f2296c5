import GophProfile.Library.Linearizability
import Mathlib.Logic.Function.Basic

/-! How the order of a linearization is found while the calls go on: a call waits until it has
its place, and may be given one that is taken back, as long as it has not been answered and the
reply of the place has no effect. -/
namespace Linearizability

variable {κ O R Q : Type}

/-- The calls on an object so far, numbered as they were made. -/
structure Calls (κ O R : Type) where
  history : List (Event Nat O R)
  /-- The call that a caller waits for. -/
  running : κ → Option (Nat × O)
  made : Nat

namespace Calls

def empty : Calls κ O R := ⟨[],fun _ => none,0⟩

variable [DecidableEq κ] (c : Calls κ O R)

def invoke (caller : κ) (op : O) : Calls κ O R :=
  ⟨c.history ++ [.invoke c.made op],Function.update c.running caller (some (c.made,op)),c.made + 1⟩

def respond (caller : κ) (reply : R) : Calls κ O R :=
  match c.running caller with
  | none => c
  | some (i,_) =>
    { c with history := c.history ++ [.respond i reply], running := Function.update c.running caller none }

/-- The caller is gone, and nobody will see the answer. -/
def leave (caller : κ) : Calls κ O R := { c with running := Function.update c.running caller none }

theorem invoke_self (caller : κ) (op : O) : (c.invoke caller op).running caller = some (c.made,op) :=
  Function.update_self _ _ _

theorem invoke_other {caller other : κ} (different : other ≠ caller) (op : O) :
    (c.invoke caller op).running other = c.running other := Function.update_of_ne different _ _

theorem leave_other {caller other : κ} (different : other ≠ caller) :
    (c.leave caller).running other = c.running other := Function.update_of_ne different _ _

theorem leave_some {caller other : κ} {call : Nat × O} (waits : (c.leave caller).running other = some call) :
    other ≠ caller ∧ c.running other = some call := by
  by_cases same : other = caller
  · subst same
    simp [leave] at waits
  · exact ⟨same,(c.leave_other same).symm.trans waits⟩

theorem respond_eq {caller : κ} {i : Nat} {op : O} (running : c.running caller = some (i,op)) (reply : R) :
    c.respond caller reply = ⟨c.history ++ [.respond i reply],(c.leave caller).running,c.made⟩ := by
  simp [respond,running,leave]

end Calls

variable {does : O → Q → R → Q → Prop} {q q' q'' : Q} {c c' c'' : Calls κ O R}
  {order order' order'' : List (Nat × O × R)} {caller other : κ} {op : O} {r : R}

/-- What is known of an order of the calls. -/
structure Explains (does : O → Q → R → Q → Prop) (q : Q) (c : Calls κ O R) (order : List (Nat × O × R))
    (q' : Q) : Prop where
  lin : Linearizes does q c.history order q'
  numbered : ∀ i op, .invoke i op ∈ c.history → i < c.made
  single : ∀ i op op', .invoke i op ∈ c.history → .invoke i op' ∈ c.history → op = op'
  placed : ∀ i ∈ order.map Prod.fst, i < c.made
  running : ∀ caller i op, c.running caller = some (i,op) →
    i < c.made ∧ .invoke i op ∈ c.history ∧ ∀ r, .respond i r ∉ c.history
  distinct : ∀ caller other i op op', c.running caller = some (i,op) → c.running other = some (i,op') →
    caller = other

/-- The caller's call has no place yet. -/
def Waits (c : Calls κ O R) (order : List (Nat × O × R)) (caller : κ) (op : O) : Prop :=
  ∃ i, c.running caller = some (i,op) ∧ i ∉ order.map Prod.fst

/-- The caller's call has its place, with a reply. -/
def Placed (c : Calls κ O R) (order : List (Nat × O × R)) (caller : κ) (op : O) (r : R) : Prop :=
  ∃ i, c.running caller = some (i,op) ∧ (i,op,r) ∈ order

/-- Nothing has changed for anybody but one caller. -/
structure Apart (caller : κ) (c : Calls κ O R) (order : List (Nat × O × R)) (c' : Calls κ O R)
    (order' : List (Nat × O × R)) : Prop where
  waits : ∀ {other op}, other ≠ caller → Waits c order other op → Waits c' order' other op
  placed : ∀ {other op r}, other ≠ caller → Placed c order other op r → Placed c' order' other op r

theorem Apart.refl : Apart caller c order c order := ⟨fun _ => id,fun _ => id⟩

theorem Apart.trans (one : Apart caller c order c' order') (two : Apart caller c' order' c'' order'') :
    Apart caller c order c'' order'' :=
  ⟨fun different waits => two.waits different (one.waits different waits),
    fun different placed => two.placed different (one.placed different placed)⟩

/-- The others wait for the same calls, and their places are the same. -/
theorem Apart.of_same (running : ∀ other, other ≠ caller → c'.running other = c.running other)
    (order : List (Nat × O × R)) : Apart caller c order c' order := by
  constructor
  · rintro other op different ⟨i,waits,fresh⟩
    exact ⟨i,(running other different).trans waits,fresh⟩
  · rintro other op r different ⟨i,waits,placed⟩
    exact ⟨i,(running other different).trans waits,placed⟩

namespace Explains

theorem empty (does : O → Q → R → Q → Prop) (q : Q) : Explains does q (Calls.empty : Calls κ O R) [] q where
  lin := .initial
  numbered := by simp [Calls.empty]
  single := by simp [Calls.empty]
  placed := by simp
  running := by simp [Calls.empty]
  distinct := by simp [Calls.empty]

theorem invoke [DecidableEq κ] (e : Explains does q c order q') (caller : κ) (op : O) :
    Explains does q (c.invoke caller op) order q' ∧ Waits (c.invoke caller op) order caller op ∧
      Apart caller c order (c.invoke caller op) order := by
  have fresh : c.made ∉ order.map Prod.fst := fun placed => Nat.lt_irrefl _ (e.placed _ placed)
  have unanswered : ∀ r, Event.respond c.made r ∉ c.history := fun r answered => fresh (e.lin.taken answered)
  have old {i : Nat} {op' : O} {other : κ} (different : other ≠ caller)
      (waits : (c.invoke caller op).running other = some (i,op')) : c.running other = some (i,op') :=
    (c.invoke_other different op).symm.trans waits
  have new {i : Nat} {op' : O} (waits : (c.invoke caller op).running caller = some (i,op')) :
      c.made = i ∧ op = op' := by
    rw [c.invoke_self] at waits
    cases waits
    exact ⟨rfl,rfl⟩
  have made {i : Nat} {op' : O} (invoked : .invoke i op' ∈ (c.invoke caller op).history) :
      .invoke i op' ∈ c.history ∨ i = c.made ∧ op' = op := by
    rcases List.mem_append.mp invoked with before | now
    · exact .inl before
    · cases List.mem_singleton.mp now
      exact .inr ⟨rfl,rfl⟩
  refine ⟨⟨e.lin.invoke fresh op,?_,?_,fun i placed => Nat.lt_succ_of_lt (e.placed i placed),?_,?_⟩,
    ⟨c.made,c.invoke_self caller op,fresh⟩,.of_same (fun other different => c.invoke_other different op) _⟩
  · intro i op' invoked
    rcases made invoked with before | ⟨rfl,-⟩
    · exact Nat.lt_succ_of_lt (e.numbered i op' before)
    · exact Nat.lt_succ_self _
  · intro i op₁ op₂ first second
    rcases made first with before | ⟨rfl,rfl⟩
    · rcases made second with before' | ⟨rfl,-⟩
      · exact e.single i op₁ op₂ before before'
      · exact absurd (e.numbered _ _ before) (Nat.lt_irrefl _)
    · rcases made second with before' | ⟨-,rfl⟩
      · exact absurd (e.numbered _ _ before') (Nat.lt_irrefl _)
      · rfl
  · intro other i op' waits
    by_cases same : other = caller
    · subst same
      obtain ⟨rfl,rfl⟩ := new waits
      exact ⟨Nat.lt_succ_self _,List.mem_append_right _ List.mem_cons_self,fun r => by
        simpa [Calls.invoke] using unanswered r⟩
    · obtain ⟨below,invoked,silent⟩ := e.running other i op' (old same waits)
      exact ⟨Nat.lt_succ_of_lt below,List.mem_append_left _ invoked,fun r => by
        simpa [Calls.invoke] using silent r⟩
  · intro one two i op₁ op₂ first second
    by_cases same₁ : one = caller
    · by_cases same₂ : two = caller
      · exact same₁.trans same₂.symm
      · subst same₁
        obtain ⟨rfl,-⟩ := new first
        exact absurd (e.running two _ _ (old same₂ second)).1 (Nat.lt_irrefl _)
    · by_cases same₂ : two = caller
      · subst same₂
        obtain ⟨rfl,-⟩ := new second
        exact absurd (e.running one _ _ (old same₁ first)).1 (Nat.lt_irrefl _)
      · exact e.distinct one two i op₁ op₂ (old same₁ first) (old same₂ second)

/-- A call that waits takes effect, with the reply it will have. -/
theorem effect (e : Explains does q c order q') (waits : Waits c order caller op) (done : does op q' r q'') :
    ∃ order', Explains does q c order' q'' ∧ Placed c order' caller op r ∧ Apart caller c order c order' := by
  obtain ⟨i,running,fresh⟩ := waits
  obtain ⟨below,invoked,-⟩ := e.running caller i op running
  refine ⟨order ++ [(i,op,r)],⟨e.lin.effect invoked fresh done,e.numbered,e.single,?_,e.running,e.distinct⟩,
    ⟨i,running,List.mem_append_right _ List.mem_cons_self⟩,?_,?_⟩
  · intro j placed
    rw [List.map_append] at placed
    rcases List.mem_append.mp placed with old | new
    · exact e.placed j old
    · exact List.mem_singleton.mp new ▸ below
  · rintro other op' different ⟨j,waits,absent⟩
    refine ⟨j,waits,fun placed => ?_⟩
    rw [List.map_append] at placed
    rcases List.mem_append.mp placed with old | new
    · exact absent old
    · obtain rfl := List.mem_singleton.mp new
      exact different (e.distinct _ _ _ _ _ waits running)
  · rintro other op' r' different ⟨j,waits,placed⟩
    exact ⟨j,waits,List.mem_append_left _ placed⟩

/-- The answer of a call that has its place. -/
theorem respond [DecidableEq κ] (e : Explains does q c order q') (placed : Placed c order caller op r) :
    Explains does q (c.respond caller r) order q' ∧ Apart caller c order (c.respond caller r) order := by
  obtain ⟨i,running,there⟩ := placed
  rw [c.respond_eq running]
  have apart : Apart caller c order ⟨c.history ++ [.respond i r],(c.leave caller).running,c.made⟩ order := by
    apply Apart.of_same
    intro other different
    exact c.leave_other different
  have old {j : Nat} {op' : O} (invoked : .invoke j op' ∈ c.history ++ [.respond i r]) : .invoke j op' ∈ c.history := by
    simpa using invoked
  refine ⟨⟨e.lin.respond there,fun j op' invoked => e.numbered j op' (old invoked),
    fun j op₁ op₂ first second => e.single j op₁ op₂ (old first) (old second),e.placed,?_,?_⟩,apart⟩
  · intro other j op' waits
    obtain ⟨different,waits⟩ := c.leave_some waits
    obtain ⟨below,invoked,silent⟩ := e.running other j op' waits
    refine ⟨below,List.mem_append_left _ invoked,fun r' answered => ?_⟩
    rcases List.mem_append.mp answered with before | now
    · exact silent r' before
    · cases List.mem_singleton.mp now
      exact different (e.distinct _ _ _ _ _ waits running)
  · intro one two j op₁ op₂ first second
    exact e.distinct one two j op₁ op₂ (c.leave_some first).2 (c.leave_some second).2

theorem leave [DecidableEq κ] (e : Explains does q c order q') (caller : κ) :
    Explains does q (c.leave caller) order q' ∧ Apart caller c order (c.leave caller) order := by
  refine ⟨⟨e.lin,e.numbered,e.single,e.placed,?_,?_⟩,.of_same (fun other different => c.leave_other different) _⟩
  · intro other j op' waits
    exact e.running other j op' (c.leave_some waits).2
  · intro one two j op₁ op₂ first second
    exact e.distinct one two j op₁ op₂ (c.leave_some first).2 (c.leave_some second).2

end Explains

/-! ### A place that is taken back -/

theorem Sequential.without {i : Nat} (sequential : Sequential does q order q')
    (idle : ∀ op r, (i,op,r) ∈ order → ∀ q q', does op q r q' → q' = q) :
    Sequential does q (order.filter fun call => call.1 ≠ i) q' := by
  induction sequential with
  | nil => exact .nil
  | @snoc order q₁ q₂ j op r before done ih =>
    have earlier := ih fun op r member => idle op r (List.mem_append_left _ member)
    rw [List.filter_append]
    by_cases same : j = i
    · subst same
      have still := idle op r (List.mem_append_right _ List.mem_cons_self) _ _ done
      simpa [still] using earlier
    · simpa [same] using earlier.snoc done

/-- A call that was not answered, and did nothing where it stands, gives its place back. -/
theorem Linearizes.retract {history : List (Event Nat O R)} {i : Nat} (lin : Linearizes does q history order q')
    (unanswered : ∀ r, .respond i r ∉ history)
    (idle : ∀ op r, (i,op,r) ∈ order → ∀ q q', does op q r q' → q' = q) :
    Linearizes does q history (order.filter fun call => call.1 ≠ i) q' where
  legal := lin.legal.without idle
  once := lin.once.sublist (List.filter_sublist.map _)
  invoked call member := lin.invoked call (List.mem_of_mem_filter member)
  answered j r answered := by
    obtain ⟨op,member⟩ := lin.answered j r answered
    refine ⟨op,List.mem_filter.mpr ⟨member,?_⟩⟩
    have different : j ≠ i := fun same => unanswered r (same ▸ answered)
    simpa using different
  realTime i' r' j op before placed := by
    have remains {k : Nat} : k ∈ (order.filter fun call => call.1 ≠ i).map Prod.fst → k ≠ i ∧ k ∈ order.map Prod.fst := by
      intro there
      obtain ⟨call,member,rfl⟩ := List.mem_map.mp there
      obtain ⟨inside,different⟩ := List.mem_filter.mp member
      exact ⟨by simpa using different,List.mem_map_of_mem inside⟩
    obtain ⟨different,there⟩ := remains placed
    have first : i' ≠ i := by
      rintro rfl
      exact unanswered r' (before.subset List.mem_cons_self)
    have pair := (lin.realTime i' r' j op before there).filter fun k => k ≠ i
    have names : (order.filter fun call => call.1 ≠ i).map Prod.fst = (order.map Prod.fst).filter fun k => k ≠ i := by
      rw [List.filter_map]
      rfl
    rw [names]
    simpa [first,different] using pair

/-- The caller's call waits again. -/
theorem Explains.retract (e : Explains does q c order q') (placed : Placed c order caller op r)
    (idle : ∀ q q', does op q r q' → q' = q) :
    ∃ order', Explains does q c order' q' ∧ Waits c order' caller op ∧ Apart caller c order c order' := by
  obtain ⟨i,running,there⟩ := placed
  obtain ⟨-,-,unanswered⟩ := e.running caller i op running
  have only : ∀ op' r', (i,op',r') ∈ order → op' = op ∧ r' = r := by
    intro op' r' member
    have same := List.inj_on_of_nodup_map e.lin.once member there rfl
    cases same
    exact ⟨rfl,rfl⟩
  have lin := e.lin.retract unanswered fun op' r' member => by
    obtain ⟨rfl,rfl⟩ := only op' r' member
    exact idle
  refine ⟨_,⟨lin,e.numbered,e.single,fun j placed => ?_,e.running,e.distinct⟩,⟨i,running,by simp⟩,?_,?_⟩
  · obtain ⟨call,member,rfl⟩ := List.mem_map.mp placed
    exact e.placed _ (List.mem_map_of_mem (List.mem_of_mem_filter member))
  · rintro other op' different ⟨j,waits,absent⟩
    refine ⟨j,waits,fun placed => absent ?_⟩
    obtain ⟨call,member,rfl⟩ := List.mem_map.mp placed
    exact List.mem_map_of_mem (List.mem_of_mem_filter member)
  · rintro other op' r' different ⟨j,waits,placed⟩
    refine ⟨j,waits,List.mem_filter.mpr ⟨placed,?_⟩⟩
    have apart : j ≠ i := fun same => different (e.distinct _ _ _ _ _ waits (same ▸ running))
    simpa using apart

/-! ### What an order says of two calls -/

theorem Sequential.split {before after : List (Nat × O × R)} (sequential : Sequential does q (before ++ after) q') :
    ∃ middle, Sequential does q before middle ∧ Sequential does middle after q' := by
  induction after using List.reverseRecOn generalizing q' with
  | nil => exact ⟨q',by rwa [List.append_nil] at sequential,.nil⟩
  | append_singleton after call ih =>
    rw [← List.append_assoc] at sequential
    generalize whole : before ++ after ++ [call] = all at sequential
    cases sequential with
    | nil => simp at whole
    | snoc first done =>
      obtain ⟨rfl,same⟩ := List.append_inj' whole rfl
      cases same
      obtain ⟨middle,one,two⟩ := ih first
      exact ⟨middle,one,two.snoc done⟩

theorem Sequential.cons {call : Nat × O × R} {rest : List (Nat × O × R)}
    (sequential : Sequential does q (call :: rest) q') :
    ∃ middle, does call.2.1 q call.2.2 middle ∧ Sequential does middle rest q' := by
  obtain ⟨middle,first,after⟩ := Sequential.split (show Sequential does q ([call] ++ rest) q' from sequential)
  generalize whole : [call] = one at first
  cases first with
  | nil => contradiction
  | snoc earlier done =>
    obtain ⟨none,same⟩ := List.append_inj' (show [] ++ [call] = _ ++ [_] from whole) rfl
    cases List.singleton_inj.mp same
    subst none
    generalize nothing : ([] : List (Nat × O × R)) = no at earlier
    cases earlier with
    | nil => exact ⟨middle,done,after⟩
    | snoc => simp at nothing

/-- What every call keeps holds after all of them. -/
theorem Sequential.invariant (sequential : Sequential does q order q') (property : Q → Prop) (here : property q)
    (kept : ∀ i op r, (i,op,r) ∈ order → ∀ q q', property q → does op q r q' → property q') : property q' := by
  induction sequential with
  | nil => exact here
  | snoc _ done ih =>
    have before := ih fun i op r member => kept i op r (List.mem_append_left _ member)
    exact kept _ _ _ (List.mem_append_right _ List.mem_cons_self) _ _ before done

theorem mem_after {α : Type} {i j : α} {before after : List α} (unique : (before ++ i :: after).Nodup)
    (pair : [i,j].Sublist (before ++ i :: after)) : j ∈ after := by
  induction before with
  | nil =>
    cases pair with
    | cons _ rest =>
      have again : i ∈ after := rest.subset List.mem_cons_self
      exact absurd again (List.nodup_cons.mp unique).1
    | cons_cons _ rest => exact List.singleton_sublist.mp rest
  | cons k before ih =>
    rw [List.cons_append,List.nodup_cons] at unique
    cases pair with
    | cons _ rest => exact ih unique.2 rest
    | cons_cons _ rest => exact absurd (List.mem_append_right _ List.mem_cons_self) unique.1

theorem Explains.entry (e : Explains does q c order q') {i : Nat} (made : .invoke i op ∈ c.history)
    (answered : .respond i r ∈ c.history) : (i,op,r) ∈ order := by
  obtain ⟨op',placed⟩ := e.lin.answered i r answered
  have same := e.single i op' op (e.lin.invoked _ placed) made
  exact same ▸ placed

/-- An answered call was carried out on what the calls before it had left. -/
theorem Explains.carried (e : Explains does q c order q') {i : Nat} (made : .invoke i op ∈ c.history)
    (answered : .respond i r ∈ c.history) :
    ∃ (before : List (Nat × O × R)) (q₁ q₂ : Q), Sequential does q before q₁ ∧ does op q₁ r q₂ := by
  have legal := e.lin.legal
  obtain ⟨before,after,rfl⟩ := List.append_of_mem (e.entry made answered)
  obtain ⟨q₁,earlier,onwards⟩ := legal.split
  obtain ⟨q₂,done,-⟩ := onwards.cons
  exact ⟨before,q₁,q₂,earlier,done⟩

/-- Of two answered calls, the second made after the answer of the first, the second was carried out
on what the first had left and the calls between them had made of it. -/
theorem Explains.later (e : Explains does q c order q') {i j : Nat} {op₁ op₂ : O} {r₁ r₂ : R}
    (made : .invoke i op₁ ∈ c.history) (inTime : [.respond i r₁,.invoke j op₂].Sublist c.history)
    (answered : .respond j r₂ ∈ c.history) :
    ∃ (before between : List (Nat × O × R)) (q₁ q₂ q₃ q₄ : Q),
      Sequential does q before q₁ ∧ does op₁ q₁ r₁ q₂ ∧ Sequential does q₂ between q₃ ∧
      does op₂ q₃ r₂ q₄ ∧ ∀ call ∈ between, .invoke call.1 call.2.1 ∈ c.history := by
  have first := e.entry made (inTime.subset List.mem_cons_self)
  have second := e.entry (inTime.subset (List.mem_cons_of_mem _ List.mem_cons_self)) answered
  have pair := e.lin.realTime i r₁ j op₂ inTime (List.mem_map_of_mem second)
  have unique := e.lin.once
  have legal := e.lin.legal
  have invoked := e.lin.invoked
  obtain ⟨before,rest,rfl⟩ := List.append_of_mem first
  have there : (j,op₂,r₂) ∈ rest := by
    rw [List.map_append,List.map_cons] at unique pair
    obtain ⟨call,member,same⟩ := List.mem_map.mp (mem_after unique pair)
    have equal := List.inj_on_of_nodup_map e.lin.once
      (List.mem_append_right _ (List.mem_cons_of_mem _ member)) second same
    exact equal ▸ member
  obtain ⟨between,after,rfl⟩ := List.append_of_mem there
  obtain ⟨q₁,earlier,onwards⟩ := legal.split
  obtain ⟨q₂,done,onwards⟩ := onwards.cons
  obtain ⟨q₃,meanwhile,onwards⟩ := onwards.split
  obtain ⟨q₄,done',-⟩ := onwards.cons
  refine ⟨before,between,q₁,q₂,q₃,q₄,earlier,done,meanwhile,done',fun call member => ?_⟩
  exact invoked call (List.mem_append_right _ (List.mem_cons_of_mem _ (List.mem_append_left _ member)))

end Linearizability
