/-
Paging through rows.

Every poll is answered with the first few of the rows it may have that no earlier poll was
answered with.  Which rows a poll may have can change from poll to poll.  No row is answered
twice, and enough polls answer every row that all of them may have: a poll that leaves such
a row out is a full page, and there are not enough rows to fill all the pages.  Nothing here
knows what the rows are.
-/
import Mathlib.Data.List.Induction
import Mathlib.Data.List.Nodup
import Mathlib.Data.List.Perm.Subperm
import RollPig.Tables

namespace Paging

open Tables

variable {α κ : Type*}

/-- A poll: the rows it may have, and the keys it is answered with. -/
structure Poll (α κ : Type*) where
  available : α → Bool
  page : List κ

/-- The keys answered so far. -/
def paged (polls : List (Poll α κ)) : List κ :=
  polls.flatMap (·.page)

@[simp] theorem paged_append (polls : List (Poll α κ)) (poll : Poll α κ) :
    paged (polls ++ [poll]) = paged polls ++ poll.page := by
  simp [paged]

variable [DecidableEq κ]

/-- Every poll is answered with the first `limit` rows it may have, of those not yet answered. -/
def Paged (key : α → κ) (rows : List α) (limit : Nat) (polls : List (Poll α κ)) : Prop :=
  ∀ before poll after, polls = before ++ poll :: after →
    poll.page = ((rows.filter poll.available).map key
      |>.filter fun k => k ∉ paged before).take limit

variable {key : α → κ} {rows : List α} {limit : Nat} {polls : List (Poll α κ)} {poll : Poll α κ}

/-- The polls but the last are paged, and so is the last. -/
theorem Paged.last (h : Paged key rows limit (polls ++ [poll])) :
    Paged key rows limit polls ∧
      poll.page = (((rows.filter poll.available).map key).filter fun k => k ∉ paged polls).take
        limit := by
  refine ⟨fun before other after hsplit => ?_, h polls poll [] rfl⟩
  exact h before other (after ++ [poll]) (by simp [hsplit])

/-- **No row is answered twice.** -/
theorem Paged.nodup (h : Paged key rows limit polls) (hrows : Unique key rows) :
    (paged polls).Nodup := by
  induction polls using List.reverseRecOn with
  | nil => exact List.nodup_nil
  | append_singleton polls poll ih =>
      obtain ⟨hinit, hlast⟩ := h.last
      rw [paged_append, List.nodup_append]
      have hkeys : ((rows.filter poll.available).map key).Nodup := hrows.filter _
      refine ⟨ih hinit, ?_, ?_⟩
      · rw [hlast]
        exact ((hkeys.filter _).sublist (List.take_sublist _ _))
      · intro k hk k' hk' hsame
        rw [hlast] at hk'
        have hnew := (List.mem_filter.mp (List.mem_of_mem_take hk')).2
        rw [← hsame] at hnew
        exact absurd hk (by simpa using hnew)

/-- What is answered is the key of a row that some poll may have. -/
theorem Paged.available (h : Paged key rows limit polls) {k : κ} (hk : k ∈ paged polls) :
    ∃ row ∈ rows, (∃ poll ∈ polls, poll.available row = true) ∧ key row = k := by
  induction polls using List.reverseRecOn with
  | nil => simp [paged] at hk
  | append_singleton polls poll ih =>
      obtain ⟨hinit, hlast⟩ := h.last
      rw [paged_append] at hk
      rcases List.mem_append.mp hk with hold | hnew
      · obtain ⟨row, hrow, ⟨other, hother, havailable⟩, hkey⟩ := ih hinit hold
        exact ⟨row, hrow, ⟨other, List.mem_append_left _ hother, havailable⟩, hkey⟩
      · rw [hlast] at hnew
        obtain ⟨row, hrow, hkey⟩ :=
          List.mem_map.mp (List.mem_filter.mp (List.mem_of_mem_take hnew)).1
        obtain ⟨hmem, havailable⟩ := List.mem_filter.mp hrow
        exact ⟨row, hmem, ⟨poll, by simp, havailable⟩, hkey⟩

/-- A row that every poll may have and none was answered with makes every page full. -/
theorem Paged.full (h : Paged key rows limit polls) {row : α} (hrow : row ∈ rows)
    (havailable : ∀ poll ∈ polls, poll.available row = true) (hmissing : key row ∉ paged polls) :
    (paged polls).length = polls.length * limit := by
  induction polls using List.reverseRecOn with
  | nil => simp [paged]
  | append_singleton polls poll ih =>
      obtain ⟨hinit, hlast⟩ := h.last
      rw [paged_append, List.mem_append, not_or] at hmissing
      obtain ⟨hbefore, hnow⟩ := hmissing
      have hlength := ih hinit (fun other hother => havailable other (List.mem_append_left _ hother))
        hbefore
      -- the row is among those left, and beyond the page
      have hleft : key row ∈ ((rows.filter poll.available).map key).filter
          fun k => k ∉ paged polls := by
        refine List.mem_filter.mpr ⟨List.mem_map_of_mem ?_, by simpa using hbefore⟩
        exact List.mem_filter.mpr ⟨hrow, havailable poll (by simp)⟩
      have hpage : poll.page.length = limit := by
        rw [hlast] at hnow ⊢
        rw [List.length_take]
        refine Nat.min_eq_left (Nat.le_of_not_lt fun hshort => hnow ?_)
        rw [List.take_of_length_le (Nat.le_of_lt hshort)]
        exact hleft
      rw [paged_append, List.length_append, List.length_append, hlength, hpage, List.length_singleton]
      exact (Nat.succ_mul polls.length limit).symm

/-- **Enough polls answer every row that all of them may have.** -/
theorem Paged.complete (h : Paged key rows limit polls) (hrows : Unique key rows)
    (henough : (rows.filter fun row => polls.any fun poll => poll.available row).length ≤
      polls.length * limit)
    {row : α} (hrow : row ∈ rows) (hpolled : polls ≠ [])
    (havailable : ∀ poll ∈ polls, poll.available row = true) : key row ∈ paged polls := by
  by_contra hmissing
  have hfull := h.full hrow havailable hmissing
  -- the answers and this row are all among the rows some poll may have
  have hsub : key row :: paged polls ⊆
      (rows.filter fun row => polls.any fun poll => poll.available row).map key := by
    intro k hk
    rcases List.mem_cons.mp hk with rfl | hold
    · obtain ⟨poll, hpoll⟩ := List.exists_mem_of_ne_nil polls hpolled
      refine List.mem_map_of_mem (List.mem_filter.mpr ⟨hrow, ?_⟩)
      exact List.any_eq_true.mpr ⟨poll, hpoll, havailable poll hpoll⟩
    · obtain ⟨other, hother, ⟨poll, hpoll, hcan⟩, rfl⟩ := h.available hold
      refine List.mem_map_of_mem (List.mem_filter.mpr ⟨hother, ?_⟩)
      exact List.any_eq_true.mpr ⟨poll, hpoll, hcan⟩
  have hnodup : (key row :: paged polls).Nodup := List.nodup_cons.mpr ⟨hmissing, h.nodup hrows⟩
  have hcount := (hnodup.subperm hsub).length_le
  rw [List.length_cons, List.length_map] at hcount
  omega

end Paging
