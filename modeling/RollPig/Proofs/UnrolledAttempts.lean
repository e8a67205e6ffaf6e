/-
No attempt is lost, and the retry never runs out.

Who is about to raise a row owns it and has read its number, so a commit counts exactly one
more, and the numbers that are committed are tickets drawn from one queue for each user and day.
Who failed to insert a row has seen it committed, and as rows stay, the second select finds it.
-/
import RollPig.Tickets
import RollPig.UnrolledAttempts

namespace RollPig

open Outline Transition

variable {requests : Nat → UnrolledRoastAttemptRequest} {i j n : Nat} {s s' : AttemptStore}
  {p p' p₀ p₁ p₂ : Pool Nat AttemptPlace AttemptStore} {fate : AttemptFate}
  {act : Act Nat AttemptFate AttemptStore}
  {acts before after : List (Act Nat AttemptFate AttemptStore)} {key : Date × String}

/-! ### The outline -/

/-- What a request may rely on at its next statement. -/
def Counting (requests : Nat → UnrolledRoastAttemptRequest) (i : Nat) (place : AttemptPlace)
    (s : AttemptStore) : Prop :=
  (∀ key, s.owner key = some i ↔ place.owns = true ∧ key = (requests i).key) ∧
    match place with
    | .selecting true => (s.row? (requests i).key).isSome = true
    | .inserting true | .exhausted => False
    | .updating attemptCount => s.count (requests i).key = attemptCount
    | .committing attemptCount => attemptCount = s.count (requests i).key + 1
    | _ => True

/-- What a statement of a request does to the table: nothing, or its row becomes its own, or it
gives its row back, which is then there if it was before. -/
inductive AttemptWrite (i : Nat) (key : Date × String) (s : AttemptStore) : AttemptStore → Prop
  | nothing : AttemptWrite i key s s
  | takes (hfree : s.owner key = none) :
      AttemptWrite i key s { s with owner := Function.update s.owner key (some i) }
  | returns (hown : s.owner key = some i) (rows : List UnrolledRoastAttempt)
      (hothers : ∀ other, other ≠ key →
        Tables.lookup attemptKey rows other = Tables.lookup attemptKey s.rows other)
      (hstays : (s.row? key).isSome = true → (Tables.lookup attemptKey rows key).isSome = true) :
      AttemptWrite i key s { rows, owner := Function.update s.owner key none }

/-- A commit writes the row of the request. -/
theorem lookup_commit (req : UnrolledRoastAttemptRequest) (attemptCount : Nat)
    (rows : List UnrolledRoastAttempt) (key : Date × String) :
    Tables.lookup attemptKey (Tables.upsert attemptKey
      { dateStr := req.dateStr, userId := req.userId, attemptCount } rows) key =
      if key = req.key then
        some { dateStr := req.dateStr, userId := req.userId, attemptCount }
      else Tables.lookup attemptKey rows key :=
  Tables.lookup_upsert _ key

theorem execute_write {place : AttemptPlace} (h : Counting requests i place s) :
    AttemptWrite i (requests i).key s (place.execute (requests i) i s).2 := by
  cases place with
  | selecting again =>
      simp only [AttemptPlace.execute]
      split_ifs with howned
      · exact .nothing
      · have hfree : s.owner (requests i).key = none := by simpa using howned
        cases s.row? (requests i).key with
        | some row => exact .takes hfree
        | none => exact .nothing
  | inserting again =>
      simp only [AttemptPlace.execute]
      split_ifs with howned hthere
      · exact .nothing
      · exact .nothing
      · exact .nothing
      · exact .takes (by simpa using howned)
  | committing attemptCount =>
      have hown : s.owner (requests i).key = some i := (h.1 _).mpr ⟨rfl, rfl⟩
      refine .returns hown _ ?_ ?_
      · intro other hother
        rw [lookup_commit, if_neg hother]
      · intro _
        rw [lookup_commit, if_pos rfl]
        rfl
  | updating | committed | answered | lost | exhausted | raised => exact .nothing

theorem abort_write {place : AttemptPlace} (h : Counting requests i place s) :
    AttemptWrite i (requests i).key s (place.abort (requests i) s).2 := by
  cases place with
  | updating | committing =>
      have hown : s.owner (requests i).key = some i := (h.1 _).mpr ⟨rfl, rfl⟩
      exact .returns hown s.rows (fun _ _ => rfl) id
  | selecting | inserting | committed | answered | lost | exhausted | raised => exact .nothing

theorem statement_write {place : AttemptPlace} (fate : AttemptFate)
    (h : Counting requests i place s) :
    AttemptWrite i (requests i).key s ((attemptProgram requests).statement i fate place s).2 := by
  cases fate with
  | executed => exact execute_write h
  | aborted => exact abort_write h

/-- **Nobody is disturbed by what another request writes.** -/
theorem Counting.undisturbed (hwrite : AttemptWrite i key s s') (hne : j ≠ i)
    {place : AttemptPlace} (h : Counting requests j place s) : Counting requests j place s' := by
  cases hwrite with
  | nothing => exact h
  | takes hfree =>
      refine ⟨fun other => ?_, h.2⟩
      rw [← h.1 other]
      show Function.update s.owner key (some i) other = some j ↔ _
      by_cases hother : other = key
      · subst hother
        simp [hfree, hne.symm]
      · simp [hother]
  | returns hown rows hothers hstays =>
      have howner : ∀ other, Function.update s.owner key none other = some j ↔
          s.owner other = some j := by
        intro other
        by_cases hother : other = key
        · subst hother
          simp [hown, hne.symm]
        · simp [hother]
      refine ⟨fun other => (howner other).trans (h.1 other), ?_⟩
      -- the row of a request that owns it is another one
      have hrow : place.owns = true →
          Tables.lookup attemptKey rows (requests j).key = s.row? (requests j).key := by
        intro howns
        refine hothers _ fun hsame => ?_
        have hmine := (h.1 (requests j).key).mpr ⟨howns, rfl⟩
        rw [hsame, hown] at hmine
        exact hne (Option.some.inj hmine).symm
      have hkept := h.2
      cases place with
      | selecting again =>
          cases again with
          | false => trivial
          | true =>
              show (Tables.lookup attemptKey rows (requests j).key).isSome = true
              by_cases hsame : (requests j).key = key
              · rw [hsame] at hkept ⊢
                exact hstays hkept
              · rw [hothers _ hsame]
                exact hkept
      | inserting again =>
          cases again with
          | false => trivial
          | true => exact hkept
      | updating attemptCount =>
          show ((Tables.lookup attemptKey rows (requests j).key).map (·.attemptCount)).getD 0 = _
          rw [hrow rfl]
          exact hkept
      | committing attemptCount =>
          show _ = ((Tables.lookup attemptKey rows (requests j).key).map (·.attemptCount)).getD 0 + 1
          rw [hrow rfl]
          exact hkept
      | committed | answered | lost | exhausted | raised => exact hkept

/-- Who owns one row owns none when it is given back. -/
theorem owner_returned {mine : Date × String} (h : ∀ key, s.owner key = some i → key = mine)
    (other : Date × String) : Function.update s.owner mine none other ≠ some i := by
  by_cases hother : other = mine
  · simp [hother]
  · simpa [hother] using fun hown => hother (h other hown)

theorem Counting.unowned {place : AttemptPlace} (h : Counting requests i place s)
    (hplace : place.owns = false) (key : Date × String) : s.owner key ≠ some i := by
  intro hown
  have howns := ((h.1 key).mp hown).1
  rw [hplace] at howns
  cases howns

/-- What is left for a request that owns nothing. -/
theorem counting_unowned {place : AttemptPlace} (hplace : place.owns = false)
    (h : ∀ key, s.owner key ≠ some i) (key : Date × String) :
    s.owner key = some i ↔ place.owns = true ∧ key = (requests i).key := by
  simp [hplace, h key]

/-- A request that owned nothing took its row. -/
theorem counting_owned {place : AttemptPlace} (hplace : place.owns = true)
    (h : ∀ key, s.owner key ≠ some i) (key : Date × String) :
    Function.update s.owner (requests i).key (some i) key = some i ↔
      place.owns = true ∧ key = (requests i).key := by
  by_cases hkey : key = (requests i).key
  · simp [hkey, hplace]
  · simp [hkey, h key]

/-- **A statement that is executed leads where its request may rely on what it finds.** -/
theorem execute_counting {place : AttemptPlace} (h : Counting requests i place s) :
    Counting requests i (place.execute (requests i) i s).1
      (place.execute (requests i) i s).2 := by
  cases place with
  | selecting again =>
      have hnone := h.unowned rfl
      simp only [AttemptPlace.execute]
      split_ifs with howned
      · exact h
      · cases hrow : s.row? (requests i).key with
        | some row =>
            refine ⟨counting_owned rfl hnone, ?_⟩
            show s.count (requests i).key = row.attemptCount
            simp [AttemptStore.count, hrow]
        | none =>
            cases again with
            | false => exact ⟨counting_unowned rfl hnone, trivial⟩
            | true =>
                have hthere : (s.row? (requests i).key).isSome = true := h.2
                rw [hrow] at hthere
                cases hthere
  | inserting again =>
      have hnone := h.unowned rfl
      have hfirst : again = false := by
        cases again with
        | false => rfl
        | true => exact h.2.elim
      subst hfirst
      simp only [AttemptPlace.execute, Bool.false_eq_true, if_false]
      split_ifs with howned hthere
      · exact h
      · exact ⟨counting_unowned rfl hnone, hthere⟩
      · refine ⟨counting_owned rfl hnone, ?_⟩
        have hmissing : s.row? (requests i).key = none := by simpa using hthere
        show 1 = s.count (requests i).key + 1
        simp [AttemptStore.count, hmissing]
  | updating attemptCount =>
      refine ⟨h.1, ?_⟩
      show attemptCount + 1 = s.count (requests i).key + 1
      rw [h.2]
  | committing attemptCount =>
      refine ⟨counting_unowned rfl ?_, trivial⟩
      exact owner_returned fun key hown => ((h.1 key).mp hown).2
  | committed => exact ⟨counting_unowned rfl (h.unowned rfl), trivial⟩
  | answered | lost | exhausted | raised => exact h

theorem abort_counting {place : AttemptPlace} (h : Counting requests i place s) :
    Counting requests i (place.abort (requests i) s).1 (place.abort (requests i) s).2 := by
  cases place with
  | updating | committing =>
      refine ⟨counting_unowned rfl ?_, trivial⟩
      exact owner_returned fun key hown => ((h.1 key).mp hown).2
  | selecting | inserting | committed => exact ⟨counting_unowned rfl (h.unowned rfl), trivial⟩
  | answered | lost | exhausted | raised => exact h

/-- **The outline is kept in every interleaving.** -/
theorem attempts_valid (requests : Nat → UnrolledRoastAttemptRequest) :
    Valid (attemptProgram requests) (fun _ => True) (Counting requests) where
  own i fate place s _ h := by
    refine ⟨trivial, ?_⟩
    cases fate with
    | executed => exact execute_counting h
    | aborted => exact abort_counting h
  others i fate place s _ h j other hne hother := hother.undisturbed (statement_write fate h) hne
  elsewhere _ _ _ hchange := hchange.elim

theorem attempts_annotated (h : Reachable (unrolledAttempts requests) p) :
    Annotated (fun _ => True) (Counting requests) p := by
  refine (attempts_valid requests).reachable (fun p hinit => ⟨trivial, fun i => ?_⟩) h
  obtain ⟨hunowned, hplaces⟩ := hinit
  rw [hplaces i]
  exact ⟨counting_unowned rfl fun key => by simp [hunowned key], trivial⟩

/-! ### The numbers are tickets -/

/-- The ticket of a request is the number it has committed. -/
def AttemptPlace.ticket (key : Date × String) (place : AttemptPlace) :
    Option ((Date × String) × Nat) :=
  place.counted?.map fun count => (key, count)

/-- One queue for each user and day. -/
def tickets (requests : Nat → UnrolledRoastAttemptRequest)
    (p : Pool Nat AttemptPlace AttemptStore) : Tickets.State Nat (Date × String) where
  last := p.store.count
  ticket i := (p.place i).ticket (requests i).key

/-- Only a commit writes rows or draws a number. -/
theorem execute_quiet {place : AttemptPlace} (hplace : ∀ count, place ≠ .committing count)
    (req : UnrolledRoastAttemptRequest) (i : Nat) (s : AttemptStore) :
    (place.execute req i s).2.rows = s.rows ∧
      ∀ key, (place.execute req i s).1.ticket key = place.ticket key := by
  cases place with
  | selecting again =>
      simp only [AttemptPlace.execute]
      split_ifs
      · exact ⟨rfl, fun _ => rfl⟩
      · cases s.row? req.key with
        | some row => exact ⟨rfl, fun _ => rfl⟩
        | none => exact ⟨rfl, fun _ => rfl⟩
  | inserting again =>
      simp only [AttemptPlace.execute]
      split_ifs <;> exact ⟨rfl, fun _ => rfl⟩
  | committing count => exact absurd rfl (hplace count)
  | updating | committed | answered | lost | exhausted | raised => exact ⟨rfl, fun _ => rfl⟩

theorem abort_quiet (place : AttemptPlace) (req : UnrolledRoastAttemptRequest) (s : AttemptStore) :
    (place.abort req s).2.rows = s.rows ∧
      ∀ key, (place.abort req s).1.ticket key = place.ticket key := by
  cases place <;> exact ⟨rfl, fun _ => rfl⟩

theorem AttemptStore.count_congr (hrows : s'.rows = s.rows) : s'.count = s.count := by
  funext key
  unfold AttemptStore.count AttemptStore.row?
  rw [hrows]

theorem tickets_stay (p : Pool Nat AttemptPlace AttemptStore) {place : AttemptPlace}
    (hrows : s'.rows = p.store.rows)
    (hticket : ∀ key, place.ticket key = (p.place i).ticket key) :
    tickets requests (p.move i place s') = tickets requests p := by
  have hplaces : (tickets requests (p.move i place s')).ticket = (tickets requests p).ticket := by
    funext j
    show ((p.move i place s').place j).ticket _ = (p.place j).ticket _
    by_cases hj : j = i
    · subst hj
      rw [Pool.move_place]
      exact hticket _
    · rw [Pool.move_other p hj]
  have hcount : (tickets requests (p.move i place s')).last = (tickets requests p).last :=
    AttemptStore.count_congr hrows
  exact Tickets.State.ext hcount hplaces

/-- **A commit draws the next number**, as its request still owns what it has read. -/
theorem tickets_draw (hcounting : Counting requests i (p.place i) p.store)
    (hplace : p.place i = .committing n) :
    tickets requests (p.move i ((p.place i).execute (requests i) i p.store).1
      ((p.place i).execute (requests i) i p.store).2) =
      (tickets requests p).draw i (requests i).key := by
  rw [hplace] at hcounting ⊢
  have hnext : n = p.store.count (requests i).key + 1 := hcounting.2
  unfold tickets Tickets.State.draw
  congr 1
  · funext key
    show ((Tables.lookup attemptKey (Tables.upsert attemptKey _ p.store.rows) key).map
      (·.attemptCount)).getD 0 = _
    rw [lookup_commit]
    by_cases hkey : key = (requests i).key
    · subst hkey
      simp [hnext]
    · rw [if_neg hkey, Function.update_of_ne hkey]
      rfl
  · funext j
    by_cases hj : j = i
    · subst hj
      simp [AttemptPlace.execute, AttemptPlace.ticket, AttemptPlace.counted?, hnext]
    · rw [Pool.move_other p hj, Function.update_of_ne hj]

/-- **A statement draws one ticket at most.** -/
theorem attempts_step (h : Annotated (fun _ => True) (Counting requests) p)
    (hstep : (unrolledAttempts requests).step p act p') :
    Tickets.Step (tickets requests p) (tickets requests p') := by
  cases act with
  | elsewhere store => exact hstep.1.elim
  | statement i fate =>
      obtain rfl := hstep
      cases fate with
      | aborted =>
          obtain ⟨hrows, hticket⟩ := abort_quiet (p.place i) (requests i) p.store
          exact (tickets_stay p hrows hticket) ▸ .stay
      | executed =>
          by_cases hcommit : ∃ n, p.place i = .committing n
          · obtain ⟨n, hplace⟩ := hcommit
            have hdraw := tickets_draw (h.places i) hplace
            have hnone : (tickets requests p).ticket i = none := by
              show (p.place i).ticket _ = none
              rw [hplace]
              rfl
            exact hdraw ▸ .draw i (requests i).key hnone
          · obtain ⟨hrows, hticket⟩ :=
              execute_quiet (fun n hplace => hcommit ⟨n, hplace⟩) (requests i) i p.store
            exact (tickets_stay p hrows hticket) ▸ .stay

theorem attempts_steps (hreach : Reachable (unrolledAttempts requests) p)
    (hrun : Run (unrolledAttempts requests) p acts p') :
    Tickets.Steps (tickets requests p) (tickets requests p') := by
  induction hrun with
  | nil => exact .refl
  | snoc hrun hstep ih =>
      exact ih.tail (attempts_step (attempts_annotated (hreach.run hrun)) hstep)

theorem ticket_iff {key : Date × String} :
    (tickets requests p).ticket i = some (key, n) ↔
      (p.place i).counted? = some n ∧ (requests i).key = key := by
  show (p.place i).ticket (requests i).key = some (key, n) ↔ _
  unfold AttemptPlace.ticket
  cases (p.place i).counted? <;> simp [and_comm]

/-- **Attempts are numbered.**  Among the requests for a user and day no number is committed
twice, the numbers that are committed are those from the count in the beginning up to the count
that is stored, a request that commits later than another one has the greater number and keeps
it, to answer it or to lose its answer, and no request runs out of retries. -/
theorem attempts_numbered (hinit : (unrolledAttempts requests).init p₀)
    (hbefore : Run (unrolledAttempts requests) p₀ before p₁)
    (hafter : Run (unrolledAttempts requests) p₁ after p₂) :
    (∀ i j n, (requests i).key = (requests j).key → (p₂.place i).counted? = some n →
      (p₂.place j).counted? = some n → i = j) ∧
    (∀ key n, (∃ i, (requests i).key = key ∧ (p₂.place i).counted? = some n) ↔
      p₀.store.count key < n ∧ n ≤ p₂.store.count key) ∧
    (∀ i j n m, (requests i).key = (requests j).key → (p₁.place i).counted? = some n →
      (p₁.place j).counted? = none → (p₂.place j).counted? = some m → n < m) ∧
    (∀ i n, (p₁.place i).counted? = some n → (p₂.place i).counted? = some n) ∧
    ∀ i, p₂.place i ≠ .exhausted := by
  have hreach₀ := Reachable.of_init hinit
  have hreach₁ := hreach₀.run hbefore
  have hsteps₁ := attempts_steps hreach₀ hbefore
  have hsteps₂ := attempts_steps hreach₁ hafter
  have hnone : ∀ i, (tickets requests p₀).ticket i = none := by
    intro i
    show (p₀.place i).ticket _ = none
    rw [hinit.2 i]
    rfl
  have hissued := Tickets.Steps.issued hnone (hsteps₁.trans hsteps₂)
  refine ⟨?_, ?_, ?_, ?_, ?_⟩
  · intro i j n hkey hi hj
    exact hissued.once i j _ (ticket_iff.mpr ⟨hi, hkey⟩) (ticket_iff.mpr ⟨hj, rfl⟩)
  · intro key n
    rw [show p₀.store.count key < n ∧ n ≤ p₂.store.count key ↔ _ from (hissued.numbers key n).symm]
    constructor
    · rintro ⟨i, hkey, hi⟩
      exact ⟨i, ticket_iff.mpr ⟨hi, hkey⟩⟩
    · rintro ⟨i, hi⟩
      obtain ⟨hplace, hkey⟩ := ticket_iff.mp hi
      exact ⟨i, hkey, hplace⟩
  · intro i j n m hkey hi hj hj'
    have hunanswered : (tickets requests p₁).ticket j = none := by
      show (p₁.place j).ticket _ = none
      unfold AttemptPlace.ticket
      rw [hj]
      rfl
    exact Tickets.Steps.later hnone hsteps₁ hsteps₂ (ticket_iff.mpr ⟨hi, hkey⟩) hunanswered
      (ticket_iff.mpr ⟨hj', rfl⟩)
  · intro i n hi
    exact (ticket_iff.mp (hsteps₂.keeps (ticket_iff.mpr ⟨hi, rfl⟩))).1
  · intro i hplace
    have hcounting := (attempts_annotated (hreach₁.run hafter)).places i
    rw [hplace] at hcounting
    exact hcounting.2

/-- Two requests for one user and day find no row; the second one inserts it, and the insert of
the first one fails. -/
def crossingRequests (_ : Nat) : UnrolledRoastAttemptRequest where
  userId := "1"
  dateStr := 739000

def crossingStart : Pool Nat AttemptPlace AttemptStore where
  place _ := .selecting false
  store := { rows := [] }

/-- The second one has committed, and its answer is lost. -/
def crossingMiddle : Pool Nat AttemptPlace AttemptStore :=
  let P := attemptProgram crossingRequests
  P.alone 1 .aborted (P.alone 1 .executed (P.alone 0 .executed crossingStart 1) 3) 1

def crossingEnd : Pool Nat AttemptPlace AttemptStore :=
  (attemptProgram crossingRequests).alone 0 .executed crossingMiddle 5

theorem attempts_numbered_crossing : crossingMiddle.place 1 = .lost 1 ∧
    crossingEnd.place 0 = .answered 2 ∧ 1 < 2 := by
  let P := attemptProgram crossingRequests
  have hfirst : Run (unrolledAttempts crossingRequests) crossingStart _ _ :=
    P.alone_run 0 .executed 1 crossingStart
  have hsecond : Run (unrolledAttempts crossingRequests) _ _ _ :=
    P.alone_run 1 .executed 3 (P.alone 0 .executed crossingStart 1)
  have hlost : Run (unrolledAttempts crossingRequests) _ _ crossingMiddle :=
    P.alone_run 1 .aborted 1 _
  have hthird : Run (unrolledAttempts crossingRequests) _ _ crossingEnd :=
    P.alone_run 0 .executed 5 crossingMiddle
  have hcounted : crossingMiddle.place 1 = .lost 1 := by decide
  have hwaits : crossingMiddle.place 0 = .inserting false := by decide
  have hagain : crossingEnd.place 0 = .answered 2 := by decide
  obtain ⟨-, -, hlater, -⟩ := attempts_numbered ⟨fun _ => rfl, fun _ => rfl⟩
    ((hfirst.append hsecond).append hlost) hthird
  exact ⟨hcounted, hagain, hlater 1 0 1 2 rfl (hcounted ▸ rfl) (hwaits ▸ rfl) (hagain ▸ rfl)⟩

end RollPig
