/-
Grants within a window of time.

A machine answers timed inputs and grants some of them.  A credit bounds what is still to be
granted until the window closes: a grant takes one off it, and waiting adds nothing, since the
credit counts what is going to be refilled already.  So the grants of a window are at most the
credit at its first input.  Nothing here knows what is granted.
-/
import Mathlib.Data.List.Basic

namespace Allowance

variable {ι ο σ τ : Type*}

/-- A machine with the times of its inputs and which answers are grants. -/
structure Machine (ι ο σ : Type*) where
  step : ι → σ → ο × σ
  time : ι → Int
  granted : ι → ο → Bool

variable {m : Machine ι ο σ} {a b : Int}

/-- The grant of one input, if it falls into the window. -/
def Machine.grant (m : Machine ι ο σ) (a b : Int) (i : ι) (s : σ) : Nat :=
  if m.granted i (m.step i s).1 ∧ a ≤ m.time i ∧ m.time i ≤ b then 1 else 0

/-- The grants within a window. -/
def Machine.grants (m : Machine ι ο σ) (a b : Int) : List ι → σ → Nat
  | [], _ => 0
  | i :: is, s => m.grant a b i s + m.grants a b is (m.step i s).2

@[simp] theorem Machine.grants_cons (m : Machine ι ο σ) (a b : Int) (i : ι) (is : List ι) (s : σ) :
    m.grants a b (i :: is) s = m.grant a b i s + m.grants a b is (m.step i s).2 :=
  rfl

theorem Machine.grant_late {i : ι} (h : b < m.time i) (s : σ) : m.grant a b i s = 0 :=
  if_neg fun hin => absurd hin.2.2 (by omega)

theorem Machine.grant_early {i : ι} (h : m.time i < a) (s : σ) : m.grant a b i s = 0 :=
  if_neg fun hin => absurd hin.2.1 (by omega)

/-- After the window nothing is counted. -/
theorem Machine.grants_late (is : List ι) (h : ∀ i ∈ is, b < m.time i) (s : σ) :
    m.grants a b is s = 0 := by
  induction is generalizing s with
  | nil => rfl
  | cons i rest ih =>
      rw [Machine.grants_cons, m.grant_late (h i (by simp)), ih fun j hj => h j (List.mem_cons_of_mem i hj)]

/-- The credit is kept by every input until the window closes. -/
structure Machine.Credit (m : Machine ι ο σ) (a b : Int) (is : List ι) (ready : Int → σ → Prop)
    (credit : σ → Nat) : Prop where
  step : ∀ i ∈ is, ∀ s t, ready t s → t ≤ m.time i → m.time i ≤ b →
    ready (m.time i) (m.step i s).2 ∧ m.grant a b i s + credit (m.step i s).2 ≤ credit s

variable {ready : Int → σ → Prop} {credit : σ → Nat}

/-- **The grants are at most the credit.** -/
theorem Machine.Credit.grants_le {is : List ι} (h : m.Credit a b is ready credit)
    (hsorted : is.Pairwise fun i j => m.time i ≤ m.time j) {s : σ} {t : Int} (hready : ready t s)
    (hafter : ∀ i ∈ is, t ≤ m.time i) : m.grants a b is s ≤ credit s := by
  induction is generalizing s t with
  | nil => exact Nat.zero_le _
  | cons i rest ih =>
      rw [List.pairwise_cons] at hsorted
      obtain ⟨hfirst, hrest⟩ := hsorted
      by_cases hopen : m.time i ≤ b
      · obtain ⟨hready', hcredit⟩ := h.step i (by simp) s t hready (hafter i (by simp)) hopen
        have hthere : m.grants a b rest (m.step i s).2 ≤ credit (m.step i s).2 :=
          ih ⟨fun j hj => h.step j (List.mem_cons_of_mem i hj)⟩ hrest hready' hfirst
        rw [Machine.grants_cons]
        omega
      · rw [Machine.grants_late]
        · exact Nat.zero_le _
        · intro j hj
          rcases List.mem_cons.mp hj with rfl | hthere
          · omega
          · have := hfirst j hthere
            omega

/-- **The grants of a window** are bounded by what its first input leaves, whatever the state
was before. -/
theorem Machine.Credit.window_le {is : List ι} (h : m.Credit a b is ready credit)
    (hsorted : is.Pairwise fun i j => m.time i ≤ m.time j) {bound : Nat}
    (hfirst : ∀ i ∈ is, ∀ s, a ≤ m.time i → m.time i ≤ b →
      ready (m.time i) (m.step i s).2 ∧ m.grant a b i s + credit (m.step i s).2 ≤ bound) (s : σ) :
    m.grants a b is s ≤ bound := by
  induction is generalizing s with
  | nil => exact Nat.zero_le _
  | cons i rest ih =>
      have hthere : m.Credit a b rest ready credit :=
        ⟨fun j hj => h.step j (List.mem_cons_of_mem i hj)⟩
      rw [List.pairwise_cons] at hsorted
      obtain ⟨hlater, hrest⟩ := hsorted
      by_cases hearly : m.time i < a
      · rw [Machine.grants_cons, m.grant_early hearly, Nat.zero_add]
        exact ih hthere hrest (fun j hj => hfirst j (List.mem_cons_of_mem i hj)) _
      · by_cases hopen : m.time i ≤ b
        · obtain ⟨hready, hbound⟩ := hfirst i (by simp) s (by omega) hopen
          have hrest' := hthere.grants_le hrest hready hlater
          rw [Machine.grants_cons]
          omega
        · rw [Machine.grants_late]
          · exact Nat.zero_le _
          · intro j hj
            rcases List.mem_cons.mp hj with rfl | hin
            · omega
            · have := hlater j hin
              omega

/-- **One view of the machine**: the inputs that are not of the view neither show in it nor
are granted, and the others act on the view alone. -/
theorem Machine.grants_view (m' : Machine ι ο τ) (own : ι → Bool) (view : σ → τ)
    (hown : ∀ i s, own i = true → m.grant a b i s = m'.grant a b i (view s) ∧
      view (m.step i s).2 = (m'.step i (view s)).2)
    (hother : ∀ i s, own i = false → m.grant a b i s = 0 ∧ view (m.step i s).2 = view s)
    (is : List ι) (s : σ) : m.grants a b is s = m'.grants a b (is.filter own) (view s) := by
  induction is generalizing s with
  | nil => rfl
  | cons i rest ih =>
      rw [Machine.grants_cons, ih]
      cases hi : own i with
      | true =>
          obtain ⟨hgrant, hview⟩ := hown i s hi
          rw [List.filter_cons_of_pos hi, Machine.grants_cons, hgrant, hview]
      | false =>
          obtain ⟨hgrant, hview⟩ := hother i s hi
          rw [List.filter_cons_of_neg (by simp [hi]), hgrant, hview, Nat.zero_add]

end Allowance
