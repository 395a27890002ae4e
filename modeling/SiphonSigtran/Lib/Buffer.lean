import Mathlib.Algebra.Order.Group.Multiset

/-!
# A buffer beside a queue

What is taken from a queue is passed on, held in a buffer or dropped, and what is held is passed
on later, all of it at once and in order. The ledger says what became of everything taken. Nothing
overtakes what is held as long as nothing is passed on while something is.
-/

namespace Lib.Buffer

variable {α : Type*}

structure Ledger (α : Type*) where
  taken : List α
  left : List α
  held : List α
  dropped : List α
  deriving DecidableEq

/-- What becomes of the next of the queue, or of what is held. -/
inductive Move (α : Type*)
  | pass (x : α)
  | hold (x : α)
  | drop (x : α)
  | release

def Ledger.empty : Ledger α := ⟨[], [], [], []⟩

def Ledger.move (b : Ledger α) : Move α → Ledger α
  | .pass x => { b with taken := b.taken ++ [x], left := b.left ++ [x] }
  | .hold x => { b with taken := b.taken ++ [x], held := b.held ++ [x] }
  | .drop x => { b with taken := b.taken ++ [x], dropped := b.dropped ++ [x] }
  | .release => { b with left := b.left ++ b.held, held := [] }

/-- Everything taken left, is held or was dropped, once. -/
def Ledger.Accounted (b : Ledger α) : Prop :=
  (b.taken : Multiset α) = b.left + b.held + b.dropped

/-- What left and then what is held, in the order they were taken. -/
def Ledger.InOrder (b : Ledger α) : Prop := (b.left ++ b.held).Sublist b.taken

/-- Something is passed on while something taken before it is held. -/
def Ledger.Overtakes (b : Ledger α) : Move α → Prop
  | .pass _ => b.held ≠ []
  | _ => False

namespace Ledger

theorem accounted_empty : (empty : Ledger α).Accounted := rfl

theorem inOrder_empty : (empty : Ledger α).InOrder := List.Sublist.refl []

theorem Accounted.move {b : Ledger α} (h : b.Accounted) (m : Move α) : (b.move m).Accounted := by
  unfold Accounted at h ⊢
  cases m with
  | pass x | hold x | drop x =>
    simp only [Ledger.move, ← Multiset.coe_add, h]
    ac_rfl
  | release =>
    simp only [Ledger.move, ← Multiset.coe_add, h, Multiset.coe_nil, add_zero]

theorem InOrder.move {b : Ledger α} (h : b.InOrder) {m : Move α} (hm : ¬b.Overtakes m) :
    (b.move m).InOrder := by
  unfold InOrder at h ⊢
  cases m with
  | pass x =>
    have hheld : b.held = [] := not_not.mp hm
    simp only [Ledger.move, hheld, List.append_nil] at h ⊢
    exact h.append_right [x]
  | hold x =>
    simp only [Ledger.move, ← List.append_assoc]
    exact h.append_right [x]
  | drop x => exact h.trans (List.sublist_append_left b.taken [x])
  | release =>
    simp only [Ledger.move, List.append_nil]
    exact h

end Ledger

end Lib.Buffer
