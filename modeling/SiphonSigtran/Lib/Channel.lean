import Mathlib.Data.Nat.Notation

/-!
# Channels whose items move a count forward

`Ascending R m fs` reads a channel from its oldest item: each item takes a count
from where the items before it left it to a value that `R` allows. A sliding
window keeps two of them in one channel, one for what is sent and one for what
is acknowledged.
-/

namespace Lib.Channel

variable {φ : Type*} {R R' : ℕ → φ → ℕ → Prop}

/-- The items take the count from `m` on, one after the other. -/
def Ascending (R : ℕ → φ → ℕ → Prop) : ℕ → List φ → Prop
  | _, [] => True
  | m, f :: fs => ∃ n, R m f n ∧ Ascending R n fs

@[simp] theorem ascending_nil (m : ℕ) : Ascending R m [] := trivial

@[simp] theorem ascending_cons (m : ℕ) (f : φ) (fs : List φ) :
    Ascending R m (f :: fs) ↔ ∃ n, R m f n ∧ Ascending R n fs := Iff.rfl

/-- A channel that goes on from `m` goes on from whatever allows as much. -/
theorem Ascending.weaken {l m : ℕ} (hR : ∀ f n, R m f n → R l f n) {fs : List φ}
    (h : Ascending R m fs) : Ascending R l fs := by
  cases fs with
  | nil => trivial
  | cons f fs =>
    obtain ⟨n, hn, hfs⟩ := h
    exact ⟨n, hR f n hn, hfs⟩

/-- The channel without its oldest item goes on from the same count. -/
theorem Ascending.tail (hR : ∀ l f m g n, R l f m → R m g n → R l g n) {m : ℕ} {fs : List φ}
    (h : Ascending R m fs) : Ascending R m fs.tail := by
  cases fs with
  | nil => trivial
  | cons f fs =>
    obtain ⟨n, hn, hfs⟩ := h
    exact hfs.weaken fun g k => hR m f n g k hn

theorem Ascending.mono (hR : ∀ m f n, R m f n → R' m f n) {m : ℕ} {fs : List φ}
    (h : Ascending R m fs) : Ascending R' m fs := by
  induction fs generalizing m with
  | nil => trivial
  | cons f fs ih =>
    obtain ⟨n, hn, hfs⟩ := h
    exact ⟨n, hR m f n hn, ih hfs⟩

/-- One more item at the end, which every count that the channel can reach allows. -/
theorem Ascending.push (top : ℕ) (hR : ∀ m f n, R m f n → R' m f n)
    (hbound : ∀ m f n, R m f n → n ≤ top) {f : φ}
    (hf : ∀ m, m ≤ top → ∃ n, R' m f n) {m : ℕ} (hm : m ≤ top) {fs : List φ}
    (h : Ascending R m fs) : Ascending R' m (fs ++ [f]) := by
  induction fs generalizing m with
  | nil =>
    obtain ⟨n, hn⟩ := hf m hm
    exact ⟨n, hn, trivial⟩
  | cons g fs ih =>
    obtain ⟨n, hn, hfs⟩ := h
    exact ⟨n, hR m g n hn, ih (hbound m g n hn) hfs⟩

end Lib.Channel
