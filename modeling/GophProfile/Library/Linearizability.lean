import Mathlib.Data.List.Nodup
import Mathlib.Data.List.Sublists

/-! Concurrent calls on one object, and what it is for them to look as if they had been
made one after the other. Every call has an identity of its own. -/
namespace Linearizability

variable {ι O R Q : Type}

inductive Event (ι O R : Type) where
  | invoke (call : ι) (op : O)
  | respond (call : ι) (reply : R)

/-- Calls with their replies, made one after the other on an object that `does` what a
single call does: earliest first. -/
inductive Sequential (does : O → Q → R → Q → Prop) (q : Q) : List (ι × O × R) → Q → Prop
  | nil : Sequential does q [] q
  | snoc {order : List (ι × O × R)} {q₁ q₂ : Q} {i : ι} {op : O} {r : R} :
      Sequential does q order q₁ → does op q₁ r q₂ → Sequential does q (order ++ [(i,op,r)]) q₂

variable {does : O → Q → R → Q → Prop} {q q' q'' : Q} {history : List (Event ι O R)}
  {order : List (ι × O × R)} {i j : ι} {op : O} {r : R}

/-- A sequential order of calls of the history: all that were answered, with their answers,
and perhaps some that are still running. A call that was answered before another was made
stands before it. -/
structure Linearizes (does : O → Q → R → Q → Prop) (q : Q) (history : List (Event ι O R))
    (order : List (ι × O × R)) (q' : Q) : Prop where
  legal : Sequential does q order q'
  once : (order.map Prod.fst).Nodup
  invoked : ∀ call ∈ order, .invoke call.1 call.2.1 ∈ history
  answered : ∀ i r, .respond i r ∈ history → ∃ op, (i,op,r) ∈ order
  realTime : ∀ i r j op, [.respond i r,.invoke j op].Sublist history →
    j ∈ order.map Prod.fst → [i,j].Sublist (order.map Prod.fst)

/-- Replies and final state are those of a sequential order. -/
def Linearizable (does : O → Q → R → Q → Prop) (q : Q) (history : List (Event ι O R)) (q' : Q) : Prop :=
  ∃ order, Linearizes does q history order q'

theorem pair_snoc {α : Type} {a b c : α} {l : List α} (part : [a,b].Sublist (l ++ [c])) :
    [a,b].Sublist l ∨ a ∈ l ∧ b = c := by
  obtain ⟨l₁,l₂,whole,first,last⟩ := List.sublist_append_iff.mp part
  rcases List.sublist_singleton.mp last with rfl | rfl
  · rw [List.append_nil] at whole
    exact .inl (whole ▸ first)
  · obtain ⟨rfl,same⟩ := List.append_inj' (show [a] ++ [b] = l₁ ++ [c] from whole) rfl
    exact .inr ⟨first.subset List.mem_cons_self,List.singleton_inj.mp same⟩

namespace Linearizes

theorem initial : Linearizes does q ([] : List (Event ι O R)) [] q where
  legal := .nil
  once := List.nodup_nil
  invoked := by simp
  answered := by simp
  realTime := by simp

theorem taken (lin : Linearizes does q history order q') (answered : .respond i r ∈ history) :
    i ∈ order.map Prod.fst := by
  obtain ⟨op,member⟩ := lin.answered i r answered
  exact List.mem_map_of_mem member

/-- A new call has no effect yet. -/
theorem invoke (lin : Linearizes does q history order q') (fresh : i ∉ order.map Prod.fst) (op : O) :
    Linearizes does q (history ++ [.invoke i op]) order q' where
  legal := lin.legal
  once := lin.once
  invoked := fun call member => List.mem_append_left _ (lin.invoked call member)
  answered := by
    intro j r member
    rcases List.mem_append.mp member with old | new
    · exact lin.answered j r old
    · cases List.mem_singleton.mp new
  realTime := by
    intro i' r' j op' before placed
    rcases pair_snoc before with old | ⟨-,new⟩
    · exact lin.realTime i' r' j op' old placed
    · cases new
      exact absurd placed fresh

/-- A running call takes effect, at one instant, with the reply it will have. -/
theorem effect (lin : Linearizes does q history order q') (running : .invoke i op ∈ history)
    (fresh : i ∉ order.map Prod.fst) (done : does op q' r q'') :
    Linearizes does q history (order ++ [(i,op,r)]) q'' where
  legal := .snoc lin.legal done
  once := by
    rw [List.map_append]
    exact List.nodup_append.mpr ⟨lin.once,by simp,fun j placed i' new => by
      rintro rfl
      obtain rfl := List.mem_singleton.mp new
      exact fresh placed⟩
  invoked := by
    intro call member
    rcases List.mem_append.mp member with old | new
    · exact lin.invoked call old
    · obtain rfl := List.mem_singleton.mp new
      exact running
  answered := by
    intro j r' member
    obtain ⟨op',placed⟩ := lin.answered j r' member
    exact ⟨op',List.mem_append_left _ placed⟩
  realTime := by
    intro i' r' j op' before placed
    rw [List.map_append] at placed ⊢
    rcases List.mem_append.mp placed with old | new
    · exact (lin.realTime i' r' j op' before old).trans (List.sublist_append_left _ _)
    · -- whoever was answered before has its place already
      obtain rfl := List.mem_singleton.mp new
      have earlier := lin.taken (before.subset List.mem_cons_self)
      exact (List.singleton_sublist.mpr earlier).append (List.Sublist.refl [j])

/-- The reply is the one the call has had its effect with. -/
theorem respond (lin : Linearizes does q history order q') (placed : (i,op,r) ∈ order) :
    Linearizes does q (history ++ [.respond i r]) order q' where
  legal := lin.legal
  once := lin.once
  invoked := fun call member => List.mem_append_left _ (lin.invoked call member)
  answered := by
    intro j r' member
    rcases List.mem_append.mp member with old | new
    · exact lin.answered j r' old
    · cases List.mem_singleton.mp new
      exact ⟨op,placed⟩
  realTime := by
    intro i' r' j op' before there
    rcases pair_snoc before with old | ⟨-,new⟩
    · exact lin.realTime i' r' j op' old there
    · cases new

end Linearizes

end Linearizability
