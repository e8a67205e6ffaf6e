/-
The refills of a group are numbered in the order they succeed.

What a request can do to the table is said once: nothing, open a vote where none is on, or
turn one vote that is on, by binding its message, closing it or completing it.  A request
that finds an expired vote closes it first.  From the changes the rows of a date and group
follow the ballots one by one, and what succeeded is exactly what a run has announced.
-/
import RollPig.Ballots
import RollPig.Refills
import RollPig.Tables

namespace RollPig

open Transition

/-! ### What may happen to the table -/

/-- A vote that is on gets its message, is closed, or completed. -/
inductive RefillTurn (row : GroupRoastRefillRequest) :
    Option GroupRoastRefillItem → Option GroupRoastRefillItem → GroupRoastRefillRequest → Prop
  | bind (messageId : String) (hmessage : messageId ≠ "")
      (hfirst : row.messageId = "" ∨ row.messageId = messageId) :
      RefillTurn row (some (refillToSchema { row with messageId })) none { row with messageId }
  | close (status : RefillStatus) (failureReason : String)
      (hstatus : status = .expired ∨ status = .failed) :
      RefillTurn row none none { row with status, failureReason, activeKey := none }
  | succeed (now : Time) (benefited : List String) (hmessage : row.messageId ≠ "")
      (hnow : now < row.expiresAt) (row' : GroupRoastRefillRequest)
      (hrow' : row' = { row with
        status := .succeeded, activeKey := none, completedAt := some now,
        benefitedUserIds := some benefited }) :
      RefillTurn row none (some (refillToSchema row')) row'

/-- The requests of a date and group that succeeded. -/
def refillsSucceeded (requests : List GroupRoastRefillRequest) (date : Date) (groupId : String) :
    List GroupRoastRefillRequest :=
  requests.filter fun row => row.dateStr = date ∧ row.groupId = groupId ∧ row.status = .succeeded

/-- One change of the table, with the item of a message it bound and of a success. -/
inductive RefillChange : List GroupRoastRefillRequest → Option GroupRoastRefillItem →
    Option GroupRoastRefillItem → List GroupRoastRefillRequest → Prop
  | stay {requests} : RefillChange requests none none requests
  | turn {before after row bound succeeded row'} (hvoting : row.status = .voting)
      (hturn : RefillTurn row bound succeeded row') :
      RefillChange (before ++ row :: after) bound succeeded (before ++ row' :: after)
  | insert {requests} (row : GroupRoastRefillRequest)
      (hid : ∀ other ∈ requests, other.requestId ≠ row.requestId)
      (hfree : ∀ other ∈ requests, other.activeKey ≠ row.activeKey)
      (hkey : row.activeKey = some (refillActiveKey row.dateStr row.groupId))
      (hvoting : row.status = .voting) (hmessage : row.messageId = "")
      (hcount : row.successCountBefore =
        (refillsSucceeded requests row.dateStr row.groupId).length) :
      RefillChange requests none none (requests ++ [row])

/-- A request closes what it finds expired, and then does its own. -/
def RefillChanges (requests : List GroupRoastRefillRequest)
    (bound succeeded : Option GroupRoastRefillItem) (requests' : List GroupRoastRefillRequest) :
    Prop :=
  ∃ middle, RefillChange requests none none middle ∧ RefillChange middle bound succeeded requests'

variable {e : Env} {s s' : RefillStore} {requests requests' : List GroupRoastRefillRequest}
  {row row' : GroupRoastRefillRequest} {bound succeeded : Option GroupRoastRefillItem}
  {event : RefillEvent} {events : List RefillEvent} {date : Date} {groupId : String}

theorem RefillChanges.stay : RefillChanges requests none none requests :=
  ⟨requests, .stay, .stay⟩

theorem RefillChange.alone (h : RefillChange requests bound succeeded requests') :
    RefillChanges requests bound succeeded requests' :=
  ⟨requests, .stay, h⟩

/-- Flushing a vote that was turned. -/
theorem RefillTurn.flush (hunique : Tables.Unique (·.requestId) s.requests)
    (hrow : row ∈ s.requests) (hvoting : row.status = .voting)
    (h : RefillTurn row bound succeeded row') :
    RefillChange s.requests bound succeeded (s.flush row').requests := by
  have hid : row'.requestId = row.requestId := by
    cases h with
    | bind => rfl
    | close => rfl
    | succeed now benefited _ _ _ hrow' => rw [hrow']
  obtain ⟨before, after, hbefore, hafter⟩ := hunique.writeBack_split hrow hid
  show RefillChange s.requests bound succeeded (Tables.writeBack (·.requestId) [row'] s.requests)
  rw [hafter, hbefore]
  exact .turn hvoting h

/-- Flushing a row as it is stored. -/
theorem RefillStore.flush_self (hunique : Tables.Unique (·.requestId) s.requests)
    (hrow : row ∈ s.requests) : s.flush row = s := by
  have hsame : Tables.writeBack (·.requestId) [row] s.requests = s.requests :=
    Tables.writeBack_self hunique fun x hx => List.mem_singleton.mp hx ▸ hrow
  unfold RefillStore.flush
  rw [hsame]

/-! ### Each request -/

/-- A vote that is on is left alone before its time is over, and closed afterwards. -/
theorem expireIfNeeded_voting (now : Time) (hvoting : row.status = .voting) :
    (expireIfNeeded row now = (row, false) ∧ now < row.expiresAt) ∨
      ∃ closed, expireIfNeeded row now = (closed, true) ∧ closed.status = .expired ∧
        RefillTurn row none none closed := by
  unfold expireIfNeeded
  by_cases hnow : now < row.expiresAt
  · rw [if_pos (Or.inr hnow)]
    exact Or.inl ⟨rfl, hnow⟩
  · rw [if_neg (by simp [hvoting, hnow])]
    exact Or.inr ⟨_, rfl, rfl, .close .expired "expired" (Or.inl rfl)⟩

/-- The rows under an active key are votes that are on. -/
def KeyedVotes (requests : List GroupRoastRefillRequest) : Prop :=
  ∀ row ∈ requests, row.activeKey =
    if row.status = .voting then some (refillActiveKey row.dateStr row.groupId) else none

theorem KeyedVotes.active (h : KeyedVotes s.requests) {key : String}
    (hfind : s.active? key = some row) : row ∈ s.requests ∧ row.status = .voting := by
  have hrow : row ∈ s.requests := List.mem_of_find?_eq_some hfind
  have hkey : row.activeKey = some key := by simpa using List.find?_some hfind
  refine ⟨hrow, ?_⟩
  by_contra hclosed
  rw [h row hrow, if_neg hclosed] at hkey
  simp at hkey

theorem openRefill_change {now : Time} {policy requestId : String}
    {req : GroupRoastRefillPrepareRequest} {response : GroupRoastRefillPrepareResponse}
    (h : openRefill now policy requestId req s = .ok (response, s')) :
    RefillChange s.requests none none s'.requests := by
  unfold openRefill at h
  extract_lets active activeUserIds at h
  clear_value activeUserIds
  dsimp only at h
  split at h
  · obtain ⟨-, rfl⟩ := Prod.mk.inj (Except.ok.inj h)
    exact .stay
  · split at h
    · simp at h
    · rename_i hfree
      obtain ⟨-, rfl⟩ := Prod.mk.inj (Except.ok.inj h)
      have hnone : ∀ other ∈ s.requests, other.requestId ≠ requestId ∧
          other.activeKey ≠ some (refillActiveKey req.dateStr req.groupId) := by
        simpa using hfree
      refine .insert _ (fun other hother => (hnone other hother).1)
        (fun other hother => (hnone other hother).2) rfl rfl rfl ?_
      exact List.countP_eq_length_filter

theorem prepareRefill_changes (hunique : Tables.Unique (·.requestId) s.requests)
    (hkeyed : KeyedVotes s.requests) {requestId : String} {req : GroupRoastRefillPrepareRequest}
    {response : GroupRoastRefillPrepareResponse}
    (h : prepareRefill e requestId req s = .ok (response, s')) :
    RefillChanges s.requests none none s'.requests := by
  unfold prepareRefill at h
  dsimp only at h
  cases hactive : s.active? (refillActiveKey req.dateStr req.groupId) with
  | none =>
      rw [hactive] at h
      exact (openRefill_change h).alone
  | some row =>
      rw [hactive] at h
      obtain ⟨hrow, hvoting⟩ := hkeyed.active hactive
      rcases expireIfNeeded_voting (utcFromTs e req.nowTs) hvoting with
        ⟨hsame, -⟩ | ⟨closed, hexpire, hclosed, hturn⟩
      · simp only [hsame, hvoting, if_true] at h
        obtain ⟨-, rfl⟩ := Prod.mk.inj (Except.ok.inj h)
        rw [RefillStore.flush_self hunique hrow]
        exact .stay
      · simp only [hexpire, hclosed, reduceCtorEq, if_false] at h
        exact ⟨_, hturn.flush hunique hrow hvoting, openRefill_change h⟩

theorem prepareAttempts_changes (hunique : Tables.Unique (·.requestId) s.requests)
    (hkeyed : KeyedVotes s.requests) {req : GroupRoastRefillPrepareRequest}
    {response : GroupRoastRefillPrepareResponse} (requestIds : List String)
    (h : RoastRefills.prepareAttempts e req s requestIds = some (response, s')) :
    RefillChanges s.requests none none s'.requests := by
  induction requestIds with
  | nil => simp [RoastRefills.prepareAttempts] at h
  | cons requestId rest ih =>
      unfold RoastRefills.prepareAttempts at h
      cases hprepare : prepareRefill e requestId req s with
      | error error =>
          rw [hprepare] at h
          exact ih h
      | ok result =>
          rw [hprepare] at h
          obtain rfl := Option.some.inj h
          exact prepareRefill_changes hunique hkeyed hprepare

theorem getActiveRefill_change (hunique : Tables.Unique (·.requestId) s.requests)
    (hkeyed : KeyedVotes s.requests) (nowTs : Option Rat) :
    RefillChange s.requests none none (getActiveRefill e date groupId nowTs s).2.requests := by
  unfold getActiveRefill
  cases hactive : s.active? (refillActiveKey date groupId) with
  | none => exact .stay
  | some row =>
      obtain ⟨hrow, hvoting⟩ := hkeyed.active hactive
      dsimp only
      rcases expireIfNeeded_voting (utcFromTs e nowTs) hvoting with
        ⟨hsame, -⟩ | ⟨closed, hexpire, hclosed, hturn⟩
      · rw [hsame]
        dsimp only
        rw [RefillStore.flush_self hunique hrow, if_neg (by simp)]
        exact .stay
      · rw [hexpire]
        exact hturn.flush hunique hrow hvoting

theorem bindRefillMessage_change (hunique : Tables.Unique (·.requestId) s.requests)
    (requestId messageId : String) (nowTs : Option Rat) :
    RefillChange s.requests
      ((bindRefillMessage e requestId messageId nowTs s).1.map refillToSchema) none
      (bindRefillMessage e requestId messageId nowTs s).2.requests := by
  unfold bindRefillMessage
  cases hfind : s.request? requestId with
  | none => exact .stay
  | some row =>
      have hrow : row ∈ s.requests := List.mem_of_find?_eq_some hfind
      dsimp only
      by_cases hvoting : row.status = .voting
      · rw [if_neg (by simp [hvoting])]
        rcases expireIfNeeded_voting (utcFromTs e nowTs) hvoting with
          ⟨hsame, -⟩ | ⟨closed, hexpire, hclosed, hturn⟩
        · rw [hsame]
          dsimp only
          rw [if_neg (by simp)]
          by_cases hother : messageId = "" ∨ (row.messageId ≠ "" ∧ row.messageId ≠ messageId)
          · rw [if_pos hother]
            exact .stay
          · rw [if_neg hother]
            have hturn : RefillTurn row _ none { row with messageId } :=
              .bind messageId (by tauto) (by tauto)
            exact hturn.flush hunique hrow hvoting
        · rw [hexpire]
          exact hturn.flush hunique hrow hvoting
      · rw [if_pos hvoting]
        exact .stay

theorem failRefill_change (hunique : Tables.Unique (·.requestId) s.requests)
    (requestId messageId reason : String) :
    RefillChange s.requests none none (failRefill requestId messageId reason s).2.requests := by
  unfold failRefill
  cases hfind : s.request? requestId with
  | none => exact .stay
  | some row =>
      have hrow : row ∈ s.requests := List.mem_of_find?_eq_some hfind
      dsimp only
      by_cases hvoting : row.status = .voting
      · rw [if_neg (by simp [hvoting])]
        split
        · exact .stay
        · have hturn : RefillTurn row none none _ :=
            .close .failed (String.ofList (reason.toList.take 64)) (Or.inr rfl)
          exact hturn.flush hunique hrow hvoting
      · rw [if_pos hvoting]
        exact .stay

/-- A request that is completed is completed at the time of the call. -/
theorem completeRefill_change (hunique : Tables.Unique (·.requestId) s.requests)
    {req : GroupRoastRefillCompleteRequest} {response : GroupRoastRefillCompleteResponse}
    (h : completeRefill e req s = (response, s')) :
    RefillChange s.requests none (if response.completed then response.request else none)
        s'.requests ∧
      (response.completed = true → ∀ item, response.request = some item →
        item.completedAt = some (utcFromTs e req.nowTs)) := by
  unfold completeRefill at h
  dsimp only at h
  cases hfind : s.request? req.requestId with
  | none =>
      rw [hfind] at h
      obtain ⟨rfl, rfl⟩ := Prod.mk.inj h
      exact ⟨.stay, by simp⟩
  | some row =>
      rw [hfind] at h
      have hrow : row ∈ s.requests := List.mem_of_find?_eq_some hfind
      dsimp only at h
      by_cases hvoting : row.status = .voting
      · rw [if_neg (by simp [hvoting])] at h
        by_cases hmessage : row.messageId = "" ∨ req.messageId = "" ∨ row.messageId ≠ req.messageId
        · rw [if_pos hmessage] at h
          obtain ⟨rfl, rfl⟩ := Prod.mk.inj h
          exact ⟨.stay, by simp⟩
        · rw [if_neg hmessage] at h
          rcases expireIfNeeded_voting (utcFromTs e req.nowTs) hvoting with
            ⟨hsame, hnow⟩ | ⟨closed, hexpire, hclosed, hturn⟩
          · rw [hsame] at h
            dsimp only at h
            rw [if_neg (by simp)] at h
            split at h
            · obtain ⟨rfl, rfl⟩ := Prod.mk.inj h
              exact ⟨.stay, by simp⟩
            · obtain ⟨rfl, rfl⟩ := Prod.mk.inj h
              have hbound : row.messageId ≠ "" := fun hempty => hmessage (Or.inl hempty)
              have hturn := RefillTurn.succeed (utcFromTs e req.nowTs)
                (benefitedUsers (getGroupActiveUserIds s.db row.dateStr row.groupId) req)
                hbound hnow _ rfl
              refine ⟨hturn.flush hunique hrow hvoting, fun _ item hitem => ?_⟩
              rw [← Option.some.inj hitem]
              rfl
          · rw [hexpire] at h
            obtain ⟨rfl, rfl⟩ := Prod.mk.inj h
            exact ⟨hturn.flush hunique hrow hvoting, by simp⟩
      · rw [if_pos hvoting] at h
        obtain ⟨rfl, rfl⟩ := Prod.mk.inj h
        exact ⟨.stay, by simp⟩

/-- **What a step of the refills does to the table.** -/
theorem refills_changes (hunique : Tables.Unique (·.requestId) s.requests)
    (hkeyed : KeyedVotes s.requests) (hstep : refills.step s event s') :
    RefillChanges s.requests event.bound event.succeeded s'.requests := by
  cases event with
  | elsewhere db =>
      obtain rfl : s' = { s with db } := hstep
      exact .stay
  | request e request response =>
      replace hstep : (response, s') = request.transaction e s := hstep
      cases request with
      | prepare req =>
          simp only [RefillRequest.transaction] at hstep
          cases hprepare : RoastRefills.prepare e req s with
          | none =>
              rw [hprepare] at hstep
              obtain ⟨rfl, rfl⟩ := Prod.mk.inj hstep
              exact .stay
          | some result =>
              rw [hprepare] at hstep
              obtain ⟨rfl, rfl⟩ := Prod.mk.inj hstep
              exact prepareAttempts_changes hunique hkeyed _ hprepare
      | bind req =>
          obtain ⟨rfl, rfl⟩ := Prod.mk.inj hstep
          exact (bindRefillMessage_change hunique req.requestId req.messageId none).alone
      | active groupId date nowTs =>
          obtain ⟨rfl, rfl⟩ := Prod.mk.inj hstep
          exact (getActiveRefill_change hunique hkeyed nowTs).alone
      | fail req =>
          obtain ⟨rfl, rfl⟩ := Prod.mk.inj hstep
          exact (failRefill_change hunique req.requestId req.messageId req.reason).alone
      | complete req =>
          obtain ⟨rfl, rfl⟩ := Prod.mk.inj hstep
          exact (completeRefill_change hunique rfl).1.alone

/-! ### What a run keeps

The announced items are all successes so far, of every group, in the order they were
announced; those of one date and group are the passed ballots.
-/

/-- The requests of a date and group that are voted on. -/
def refillVotes (requests : List GroupRoastRefillRequest) (date : Date) (groupId : String) :
    List GroupRoastRefillRequest :=
  requests.filter fun row => row.dateStr = date ∧ row.groupId = groupId ∧ row.status = .voting

/-- The announced successes of a date and group. -/
def refillsAnnounced (announced : List GroupRoastRefillItem) (date : Date) (groupId : String) :
    List GroupRoastRefillItem :=
  announced.filter fun item => item.dateStr = date ∧ item.groupId = groupId

def GroupRoastRefillRequest.ballot (row : GroupRoastRefillRequest) : Ballots.Ballot String :=
  ⟨row.requestId, row.successCountBefore⟩

def GroupRoastRefillItem.ballot (item : GroupRoastRefillItem) : Ballots.Ballot String :=
  ⟨item.requestId, item.successCountBefore⟩

/-- The rows of a date and group show these ballots. -/
structure ShowsBallots (requests : List GroupRoastRefillRequest)
    (announced : List GroupRoastRefillItem) (date : Date) (groupId : String)
    (b : Ballots.State String) : Prop where
  standing : (refillVotes requests date groupId).map (·.ballot) = b.standing.toList
  passed : (refillsAnnounced announced date groupId).map (·.ballot) = b.passed

/-- The order the table is in after a run that bound these messages and announced these
successes. -/
structure Orderly (bounds announced : List GroupRoastRefillItem)
    (requests : List GroupRoastRefillRequest) : Prop where
  ids : Tables.Unique (·.requestId) requests
  keyed : KeyedVotes requests
  bound : ∀ row ∈ requests, row.messageId ≠ "" →
    ∃ item ∈ bounds, item.requestId = row.requestId ∧ item.messageId = row.messageId
  successes : announced.Perm ((requests.filter fun row => row.status = .succeeded).map refillToSchema)
  ballots : ∀ date groupId, ∃ b, Ballots.Counted b ∧
    ShowsBallots requests announced date groupId b

variable {bounds announced : List GroupRoastRefillItem}

theorem Orderly.empty : Orderly [] [] [] where
  ids := List.nodup_nil
  keyed := by simp [KeyedVotes]
  bound := by simp
  successes := by simp
  ballots date groupId := ⟨{}, .empty, rfl, rfl⟩

/-- What was announced for a date and group is what succeeded there. -/
theorem Orderly.perm (h : Orderly bounds announced requests) (date : Date) (groupId : String) :
    (refillsAnnounced announced date groupId).Perm
      ((refillsSucceeded requests date groupId).map refillToSchema) := by
  have hperm := h.successes.filter fun item => item.dateStr = date ∧ item.groupId = groupId
  rw [List.filter_map, List.filter_filter] at hperm
  refine hperm.trans (List.Perm.of_eq ?_)
  unfold refillsSucceeded
  congr 1
  refine List.filter_congr fun row _ => ?_
  show (decide (row.dateStr = date ∧ row.groupId = groupId) &&
    decide (row.status = .succeeded)) = _
  simp [Bool.and_assoc]

theorem Orderly.length (h : Orderly bounds announced requests) (date : Date) (groupId : String) :
    (refillsAnnounced announced date groupId).length =
      (refillsSucceeded requests date groupId).length := by
  rw [(h.perm date groupId).length_eq, List.length_map]

@[simp] theorem refillVotes_append (before after : List GroupRoastRefillRequest) :
    refillVotes (before ++ after) date groupId =
      refillVotes before date groupId ++ refillVotes after date groupId :=
  List.filter_append ..

theorem refillVotes_cons (row : GroupRoastRefillRequest) (rest : List GroupRoastRefillRequest) :
    refillVotes (row :: rest) date groupId =
      if row.dateStr = date ∧ row.groupId = groupId ∧ row.status = .voting then
        row :: refillVotes rest date groupId
      else refillVotes rest date groupId := by
  simp [refillVotes, List.filter_cons]

/-- A vote of a date and group stands alone. -/
theorem ShowsBallots.split {before after : List GroupRoastRefillRequest} {b : Ballots.State String}
    (h : ShowsBallots (before ++ row :: after) announced row.dateStr row.groupId b)
    (hvoting : row.status = .voting) :
    refillVotes before row.dateStr row.groupId = [] ∧
      refillVotes after row.dateStr row.groupId = [] ∧ b.standing = some row.ballot := by
  have hstanding := h.standing
  rw [refillVotes_append, refillVotes_cons, if_pos ⟨rfl, rfl, hvoting⟩, List.map_append,
    List.map_cons] at hstanding
  cases hb : b.standing with
  | none => simp [hb] at hstanding
  | some ballot =>
      rw [hb, Option.toList_some, List.append_eq_singleton_iff] at hstanding
      rcases hstanding with ⟨hbefore, hrow⟩ | ⟨-, hrow⟩
      · obtain ⟨rfl, hafter⟩ := List.cons.inj hrow
        exact ⟨List.map_eq_nil_iff.mp hbefore, List.map_eq_nil_iff.mp hafter, rfl⟩
      · simp at hrow

/-! ### One change -/

/-- A row of the table after a turn is an old one or the turned one. -/
theorem mem_turned {before after : List GroupRoastRefillRequest} {x : GroupRoastRefillRequest}
    (h : x ∈ before ++ row' :: after) : x ∈ before ++ row :: after ∨ x = row' := by
  simp only [List.mem_append, List.mem_cons] at h ⊢
  tauto

/-- A turn keeps the identity of its vote. -/
theorem RefillTurn.kept (h : RefillTurn row bound succeeded row') :
    row'.requestId = row.requestId ∧ row'.dateStr = row.dateStr ∧ row'.groupId = row.groupId ∧
      row'.ballot = row.ballot := by
  cases h with
  | bind => exact ⟨rfl, rfl, rfl, rfl⟩
  | close => exact ⟨rfl, rfl, rfl, rfl⟩
  | succeed now benefited _ _ _ hrow' => rw [hrow']; exact ⟨rfl, rfl, rfl, rfl⟩

theorem Orderly.turn_ballots {before after : List GroupRoastRefillRequest}
    (h : Orderly bounds announced (before ++ row :: after)) (hvoting : row.status = .voting)
    (hturn : RefillTurn row bound succeeded row') (date : Date) (groupId : String) :
    ∃ b, Ballots.Counted b ∧
      ShowsBallots (before ++ row' :: after) (announced ++ succeeded.toList) date groupId b := by
  obtain ⟨b, hcounted, hshows⟩ := h.ballots date groupId
  obtain ⟨-, hdate, hgroup, hballot⟩ := hturn.kept
  by_cases hhere : row.dateStr = date ∧ row.groupId = groupId
  · obtain ⟨rfl, rfl⟩ := hhere
    obtain ⟨hbefore, hafter, hstanding⟩ := hshows.split hvoting
    have hpassed := hshows.passed
    cases hturn with
    | bind messageId hmessage hfirst =>
        refine ⟨b, hcounted, ?_, by simpa using hpassed⟩
        rw [refillVotes_append, refillVotes_cons, if_pos ⟨rfl, rfl, hvoting⟩, hbefore, hafter,
          hstanding]
        rfl
    | close status reason hstatus =>
        have hclosed : ¬ status = .voting := by rcases hstatus with rfl | rfl <;> simp
        refine ⟨⟨none, b.passed⟩, hcounted.step .drop, ?_, by simpa using hpassed⟩
        rw [refillVotes_append, refillVotes_cons, if_neg (fun hon => hclosed hon.2.2), hbefore,
          hafter]
        rfl
    | succeed now benefited hmessage hnow row' hrow' =>
        have hstep : Ballots.Step b ⟨none, b.passed ++ [row.ballot]⟩ := by
          obtain ⟨standing, passed⟩ := b
          obtain rfl : standing = some row.ballot := hstanding
          exact .pass
        subst hrow'
        refine ⟨_, hcounted.step hstep, ?_, ?_⟩
        · rw [refillVotes_append, refillVotes_cons, if_neg (by simp), hbefore, hafter]
          rfl
        · unfold refillsAnnounced at hpassed ⊢
          rw [List.filter_append, List.map_append, hpassed]
          congr 1
          simp [refillToSchema, GroupRoastRefillItem.ballot, GroupRoastRefillRequest.ballot]
  · have hrow : ¬ (row.dateStr = date ∧ row.groupId = groupId ∧ row.status = .voting) :=
      fun hon => hhere ⟨hon.1, hon.2.1⟩
    have hrow' : ¬ (row'.dateStr = date ∧ row'.groupId = groupId ∧ row'.status = .voting) :=
      fun hon => hhere ⟨hdate ▸ hon.1, hgroup ▸ hon.2.1⟩
    refine ⟨b, hcounted, ?_, ?_⟩
    · have hstanding := hshows.standing
      rw [refillVotes_append, refillVotes_cons, if_neg hrow] at hstanding
      rw [refillVotes_append, refillVotes_cons, if_neg hrow', hstanding]
    · rw [← hshows.passed]
      unfold refillsAnnounced
      rw [List.filter_append, List.map_append]
      have hnone : succeeded.toList.filter (fun item => item.dateStr = date ∧
          item.groupId = groupId) = [] := by
        cases hturn with
        | bind => rfl
        | close => rfl
        | succeed now benefited _ _ row' hrow' =>
            subst hrow'
            simpa [refillToSchema] using hhere
      rw [hnone, List.map_nil, List.append_nil]

theorem Orderly.turn {before after : List GroupRoastRefillRequest}
    (h : Orderly bounds announced (before ++ row :: after)) (hvoting : row.status = .voting)
    (hturn : RefillTurn row bound succeeded row') :
    Orderly (bounds ++ bound.toList) (announced ++ succeeded.toList) (before ++ row' :: after) where
  ids := by
    have hids := h.ids
    unfold Tables.Unique at hids ⊢
    rw [List.map_append, List.map_cons] at hids ⊢
    rw [hturn.kept.1]
    exact hids
  keyed x hx := by
    rcases mem_turned hx with hold | rfl
    · exact h.keyed x hold
    · have hkey := h.keyed row (by simp)
      cases hturn with
      | bind => exact hkey
      | close status reason hstatus => rcases hstatus with rfl | rfl <;> rfl
      | succeed now benefited _ _ _ hrow' => rw [hrow']; rfl
  bound x hx hmessage := by
    rcases mem_turned hx with hold | rfl
    · obtain ⟨item, hitem, hid⟩ := h.bound x hold hmessage
      exact ⟨item, List.mem_append_left _ hitem, hid⟩
    · have hrow : row.messageId ≠ "" → ∃ item ∈ bounds ++ bound.toList,
          item.requestId = row.requestId ∧ item.messageId = row.messageId := by
        intro hmessage
        obtain ⟨item, hitem, hid⟩ := h.bound row (by simp) hmessage
        exact ⟨item, List.mem_append_left _ hitem, hid⟩
      cases hturn with
      | bind messageId => exact ⟨_, List.mem_append_right _ (List.mem_singleton_self _), rfl, rfl⟩
      | close => exact hrow hmessage
      | succeed now benefited hbound _ _ hrow' => subst hrow'; exact hrow hbound
  successes := by
    have hopen : (decide (row.status = .succeeded)) = false := by simp [hvoting]
    have hold := h.successes
    rw [List.filter_append, List.filter_cons, hopen] at hold
    rw [List.filter_append, List.filter_cons]
    cases hturn with
    | bind => simpa [hvoting] using hold
    | close status reason hstatus => rcases hstatus with rfl | rfl <;> simpa using hold
    | succeed now benefited _ _ row' hrow' =>
        have hdone : (decide (row'.status = .succeeded)) = true := by simp [hrow']
        rw [hdone, if_pos rfl, List.map_append, List.map_cons]
        refine (List.Perm.append_right _ hold).trans ?_
        rw [if_neg (by simp), List.map_append, Option.toList_some]
        refine List.perm_append_comm.trans ?_
        rw [List.singleton_append]
        exact List.perm_middle.symm
  ballots := h.turn_ballots hvoting hturn

theorem Orderly.insert (h : Orderly bounds announced requests)
    (hid : ∀ other ∈ requests, other.requestId ≠ row.requestId)
    (hfree : ∀ other ∈ requests, other.activeKey ≠ row.activeKey)
    (hkey : row.activeKey = some (refillActiveKey row.dateStr row.groupId))
    (hvoting : row.status = .voting) (hmessage : row.messageId = "")
    (hcount : row.successCountBefore =
      (refillsSucceeded requests row.dateStr row.groupId).length) :
    Orderly bounds announced (requests ++ [row]) where
  ids := h.ids.insert hid
  keyed x hx := by
    rcases List.mem_append.mp hx with hold | hnew
    · exact h.keyed x hold
    · obtain rfl := List.mem_singleton.mp hnew
      rw [if_pos hvoting]
      exact hkey
  bound x hx hbound := by
    rcases List.mem_append.mp hx with hold | hnew
    · exact h.bound x hold hbound
    · obtain rfl := List.mem_singleton.mp hnew
      exact absurd hmessage hbound
  successes := by
    have hnone : ([row].filter fun row => row.status = .succeeded) = [] := by simp [hvoting]
    rw [List.filter_append, hnone, List.append_nil]
    exact h.successes
  ballots date groupId := by
    obtain ⟨b, hcounted, hshows⟩ := h.ballots date groupId
    by_cases hhere : row.dateStr = date ∧ row.groupId = groupId
    · obtain ⟨rfl, rfl⟩ := hhere
      have hnone : refillVotes requests row.dateStr row.groupId = [] := by
        refine List.filter_eq_nil_iff.mpr fun other hother => ?_
        simp only [decide_eq_true_eq]
        rintro ⟨hdate, hgroup, hon⟩
        refine hfree other hother ?_
        rw [h.keyed other hother, if_pos hon, hkey, hdate, hgroup]
      have hstanding : b.standing = none := by
        have hshown := hshows.standing
        rw [hnone] at hshown
        exact Option.toList_eq_nil_iff.mp hshown.symm
      have hnumber : row.successCountBefore = b.passed.length := by
        rw [hcount, ← h.length, ← hshows.passed, List.length_map]
      have hstep : Ballots.Step b ⟨some row.ballot, b.passed⟩ := by
        obtain ⟨standing, passed⟩ := b
        obtain rfl : standing = none := hstanding
        have hballot : row.ballot = ⟨row.requestId, passed.length⟩ := by
          unfold GroupRoastRefillRequest.ballot
          rw [hnumber]
        rw [hballot]
        exact .call row.requestId
      refine ⟨_, hcounted.step hstep, ?_, hshows.passed⟩
      rw [refillVotes_append, hnone, refillVotes_cons, if_pos ⟨rfl, rfl, hvoting⟩]
      rfl
    · refine ⟨b, hcounted, ?_, hshows.passed⟩
      rw [refillVotes_append, refillVotes_cons, if_neg (fun hon => hhere ⟨hon.1, hon.2.1⟩),
        ← hshows.standing]
      simp [refillVotes]

/-- **What one change keeps.** -/
theorem Orderly.change (h : Orderly bounds announced requests)
    (hchange : RefillChange requests bound succeeded requests') :
    Orderly (bounds ++ bound.toList) (announced ++ succeeded.toList) requests' := by
  cases hchange with
  | stay => simpa using h
  | turn hvoting hturn => exact h.turn hvoting hturn
  | insert row hid hfree hkey hvoting hmessage hcount =>
      simpa using h.insert hid hfree hkey hvoting hmessage hcount

/-! ### A whole run -/

/-- The messages a run bound, in order. -/
def refillBounds (events : List RefillEvent) : List GroupRoastRefillItem :=
  events.filterMap RefillEvent.bound

/-- **What every run of the refills keeps.** -/
theorem refills_orderly {s₀ s : RefillStore} (hinit : refills.init s₀)
    (h : Run refills s₀ events s) :
    Orderly (refillBounds events) (refillSuccesses events) s.requests := by
  have hstart : s₀.requests = [] := hinit
  refine h.history (I := fun events s =>
    Orderly (refillBounds events) (refillSuccesses events) s.requests) ?_ ?_
  · rw [hstart]
    exact .empty
  intro events t event u _ ht hstep
  obtain ⟨middle, hclose, hchange⟩ := refills_changes ht.ids ht.keyed hstep
  have hnext := (ht.change hclose).change hchange
  have hlast : ∀ label : RefillEvent → Option GroupRoastRefillItem,
      (events ++ [event]).filterMap label = events.filterMap label ++ (label event).toList := by
    intro label
    rw [List.filterMap_append]
    cases hlabel : label event <;> simp [hlabel]
  unfold refillBounds refillSuccesses at hnext ⊢
  rw [hlast, hlast]
  simpa using hnext

/-! ### The refills of a group -/

/-- The refills of a date and group in a state reached by these events: at most one vote, which
counts those that succeeded, and these in the order they succeeded. -/
structure RefillsNumbered (events : List RefillEvent) (s : RefillStore) (date : Date)
    (groupId : String) : Prop where
  alone : (refillVotes s.requests date groupId).length ≤ 1
  frozen : ∀ row ∈ refillVotes s.requests date groupId,
    row.successCountBefore = (refillsSucceeded s.requests date groupId).length
  announced : (refillsAnnounced (refillSuccesses events) date groupId).Perm
    ((refillsSucceeded s.requests date groupId).map refillToSchema)
  numbered : (refillsAnnounced (refillSuccesses events) date groupId).map (·.successCountBefore) =
    List.range (refillsSucceeded s.requests date groupId).length

/-- A success under the message bound before, by a complete that came in time. -/
structure RefillEarned (earlier : List RefillEvent) (event : RefillEvent)
    (item : GroupRoastRefillItem) : Prop where
  message : item.messageId ≠ ""
  bound : ∃ b ∈ refillBounds earlier, b.requestId = item.requestId ∧ b.messageId = item.messageId
  inTime : ∃ e req response, event = .request e (.complete req) (.complete response) ∧
    utcFromTs e req.nowTs < item.expiresAt

theorem Orderly.refillsNumbered
    (h : Orderly (refillBounds events) (refillSuccesses events) s.requests) (date : Date)
    (groupId : String) : RefillsNumbered events s date groupId := by
  obtain ⟨b, hcounted, hshows⟩ := h.ballots date groupId
  have hlength : b.passed.length = (refillsSucceeded s.requests date groupId).length := by
    rw [← h.length, ← hshows.passed, List.length_map]
  refine ⟨?_, fun row hrow => ?_, h.perm date groupId, ?_⟩
  · have hcount := congrArg List.length hshows.standing
    rw [List.length_map] at hcount
    rw [hcount]
    exact Option.length_toList_le
  · have hballot : row.ballot ∈ b.standing.toList := by
      rw [← hshows.standing]
      exact List.mem_map_of_mem hrow
    have hnumber := hcounted.standing row.ballot (Option.mem_toList.mp hballot)
    exact hnumber.trans hlength
  · have hpassed := hcounted.passed
    rw [← hlength, ← hpassed, ← hshows.passed, List.map_map]
    rfl

/-- Each request is announced once. -/
theorem Orderly.once (h : Orderly bounds announced requests) :
    (announced.map (·.requestId)).Nodup := by
  have hids : ((requests.filter fun row => row.status = .succeeded).map (·.requestId)).Nodup :=
    h.ids.filter _
  have hperm := h.successes.map (·.requestId)
  rw [List.map_map] at hperm
  exact hperm.nodup_iff.mpr hids

variable {item : GroupRoastRefillItem}

/-- Only a complete succeeds, and at the time it names. -/
theorem refills_succeeded (hunique : Tables.Unique (·.requestId) s.requests)
    (hstep : refills.step s event s') (h : event.succeeded = some item) :
    ∃ e req response, event = .request e (.complete req) (.complete response) ∧
      item.completedAt = some (utcFromTs e req.nowTs) := by
  cases event with
  | elsewhere db => simp [RefillEvent.succeeded] at h
  | request e request response =>
      replace hstep : (response, s') = request.transaction e s := hstep
      cases request with
      | prepare req =>
          simp only [RefillRequest.transaction] at hstep
          cases hprepare : RoastRefills.prepare e req s <;>
            simp_all [RefillEvent.succeeded]
      | bind req =>
          obtain ⟨rfl, rfl⟩ := Prod.mk.inj hstep
          simp [RefillEvent.succeeded] at h
      | active groupId date nowTs =>
          obtain ⟨rfl, rfl⟩ := Prod.mk.inj hstep
          simp [RefillEvent.succeeded] at h
      | fail req =>
          obtain ⟨rfl, rfl⟩ := Prod.mk.inj hstep
          simp [RefillEvent.succeeded] at h
      | complete req =>
          obtain ⟨answer, after, hcomplete⟩ : ∃ answer after,
              completeRefill e req s = (answer, after) := ⟨_, _, rfl⟩
          replace hstep : (response, s') = (.complete answer, after) := by
            rw [hstep]
            simp only [RefillRequest.transaction, RoastRefills.complete, hcomplete]
          obtain ⟨rfl, rfl⟩ := Prod.mk.inj hstep
          refine ⟨e, req, answer, rfl, ?_⟩
          have htime := (completeRefill_change hunique hcomplete).2
          replace h : (if answer.completed then answer.request else none) = some item := h
          by_cases hcompleted : answer.completed = true
          · rw [if_pos hcompleted] at h
            exact htime hcompleted item h
          · rw [if_neg hcompleted] at h
            simp at h

/-- What a success takes. -/
theorem Orderly.earned (h : Orderly bounds announced requests)
    (hchange : RefillChange requests bound (some item) requests') :
    item.messageId ≠ "" ∧
      (∃ b ∈ bounds, b.requestId = item.requestId ∧ b.messageId = item.messageId) ∧
      ∃ now, item.completedAt = some now ∧ now < item.expiresAt := by
  generalize hitem : some item = succeeded at hchange
  cases hchange with
  | stay => simp at hitem
  | insert => simp at hitem
  | @turn before after row bound succeeded row' hvoting hturn =>
      cases hturn with
      | bind => simp at hitem
      | close => simp at hitem
      | succeed now benefited hmessage hnow row' hrow' =>
          obtain rfl := Option.some.inj hitem
          subst hrow'
          exact ⟨hmessage, h.bound row (by simp) hmessage, now, rfl, hnow⟩

theorem refills_earned {s₀ : RefillStore} (hinit : refills.init s₀) (h : Run refills s₀ events s)
    {earlier later : List RefillEvent} (hevents : events = earlier ++ event :: later)
    (hitem : event.succeeded = some item) : RefillEarned earlier event item := by
  obtain ⟨t, hbefore, hafter⟩ := h.split earlier (event :: later) hevents
  obtain ⟨t', hstep, -⟩ := hafter.of_cons
  have ht := refills_orderly hinit hbefore
  obtain ⟨middle, hclose, hchange⟩ := refills_changes ht.ids ht.keyed hstep
  obtain ⟨e, req, response, rfl, hat⟩ := refills_succeeded ht.ids hstep hitem
  rw [hitem] at hchange
  obtain ⟨hmessage, hbound, now, hnow, htime⟩ := (ht.change hclose).earned hchange
  obtain rfl := Option.some.inj (hat.symm.trans hnow)
  exact ⟨hmessage, by simpa using hbound, e, req, response, rfl, htime⟩

/-- **The refills of every date and group are numbered 0, 1, 2, … in the order they succeed,
whatever is requested in between**, and each succeeds once, under its message and in time. -/
theorem refills_in_order {s₀ s : RefillStore} {events : List RefillEvent}
    (hinit : refills.init s₀) (h : Run refills s₀ events s) :
    (∀ row ∈ s.requests, row.activeKey ≠ none ↔ row.status = .voting) ∧
      (∀ date groupId, RefillsNumbered events s date groupId) ∧
      ((refillSuccesses events).map (·.requestId)).Nodup ∧
      ∀ earlier event later item, events = earlier ++ event :: later →
        event.succeeded = some item → RefillEarned earlier event item := by
  have horder := refills_orderly hinit h
  refine ⟨fun row hrow => ?_, fun date groupId => horder.refillsNumbered date groupId,
    horder.once, fun earlier event later item hevents hitem =>
      refills_earned hinit h hevents hitem⟩
  rw [horder.keyed row hrow]
  by_cases hvoting : row.status = .voting <;> simp [hvoting]

/-- Execute requests one after the other. -/
def playRefills : RefillStore → List (Env × RefillRequest) → List RefillEvent × RefillStore
  | s, [] => ([], s)
  | s, (e, request) :: rest =>
      let played := playRefills (request.transaction e s).2 rest
      (.request e request (request.transaction e s).1 :: played.1, played.2)

theorem playRefills_run (script : List (Env × RefillRequest)) (s : RefillStore) :
    Run refills s (playRefills s script).1 (playRefills s script).2 := by
  induction script generalizing s with
  | nil => exact Run.nil
  | cons call rest ih =>
      obtain ⟨e, request⟩ := call
      exact Run.cons rfl (ih (request.transaction e s).2)

/-- A group of three active users. -/
def threeActive : RefillStore :=
  { db := { activeUsers := ["1", "2", "3"].map fun userId =>
      { dateStr := 739000, groupId := "g", userId, activeAt := 0 } } }

/-- A vote that succeeds, one that expires, and one that succeeds. -/
def threeVotes : List (Env × RefillRequest) :=
  let prepare : RefillRequest :=
    .prepare { groupId := "g", initiatorId := "1", deliveryBotId := "b", dateStr := 739000 }
  let bind (requestId : String) : RefillRequest := .bind { requestId, messageId := "m" }
  let complete (requestId : String) : RefillRequest :=
    .complete { requestId, messageId := "m", voterIds := ["1", "2"] }
  let e (now : Time) (requestId : String) : Env := { now, dbNow := now, uuid := fun _ => requestId }
  [(e 0 "r", prepare), (e 1 "", bind "r"), (e 2 "", complete "r"), (e 3 "s", prepare),
    (e (minutes 20) "t", prepare), (e (minutes 21) "", bind "t"), (e (minutes 22) "", complete "t")]

theorem refills_in_order_thrice :
    RefillsNumbered (playRefills threeActive threeVotes).1 (playRefills threeActive threeVotes).2
        739000 "g" ∧
      (refillSuccesses (playRefills threeActive threeVotes).1).map
        (fun item => (item.requestId, item.successCountBefore)) = [("r", 0), ("t", 1)] :=
  ⟨(refills_in_order (show refills.init threeActive from rfl)
      (playRefills_run threeVotes threeActive)).2.1 739000 "g",
    by decide +kernel⟩

end RollPig
