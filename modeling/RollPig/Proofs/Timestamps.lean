/-
Timestamps compared as texts.

The lease of a waiting notice is the only one whose age is read off the text that was
stored.  `isoformat` writes every field but the fraction in a fixed width, and leaves the
fraction out where it is zero; the text still keeps the order of the clock.  The calendar is
followed through `ord2ymd`: the days of a year are numbered, and later days have later names.
-/
import RollPig.Decimals
import RollPig.Proofs.NoticeRuns
import RollPig.Tools.ImportLegacyJson

namespace RollPig

open Decimals Transition

/-! ### The calendar -/

/-- Month and day of the day of a year that has so many days before it. -/
def dayOfYear (leap : Bool) (days : Nat) : Nat × Nat :=
  let month := (days + 50) / 32
  let preceding := daysBeforeMonth month + (if 2 < month ∧ leap then 1 else 0)
  if days < preceding then
    let month := month - 1
    let preceding := preceding - (daysInMonth month + (if month = 2 ∧ leap then 1 else 0))
    (month, days - preceding + 1)
  else (month, days - preceding + 1)

/-- The month decides, then the day. -/
def Earlier (d d' : Nat × Nat) : Prop :=
  d.1 < d'.1 ∨ d.1 = d'.1 ∧ d.2 < d'.2

instance (d d' : Nat × Nat) : Decidable (Earlier d d') :=
  inferInstanceAs (Decidable (_ ∨ _))

theorem Earlier.trans {d d' d'' : Nat × Nat} (h : Earlier d d') (h' : Earlier d' d'') :
    Earlier d d'' := by
  unfold Earlier at *
  omega

theorem dayOfYear_next :
    ∀ leap, ∀ days < 365, Earlier (dayOfYear leap days) (dayOfYear leap (days + 1)) := by
  decide +kernel

theorem dayOfYear_fits :
    ∀ leap, ∀ days < 366, (dayOfYear leap days).1 < 100 ∧ (dayOfYear leap days).2 < 100 := by
  decide +kernel

/-- Later days of a year have later names. -/
theorem dayOfYear_earlier {leap : Bool} {days days' : Nat} (h : days < days')
    (hyear : days' < 366) :
    Earlier (dayOfYear leap days) (dayOfYear leap days') := by
  induction days' with
  | zero => omega
  | succ days' ih =>
      have hnext := dayOfYear_next leap days' (by omega)
      by_cases hlast : days = days'
      · rw [hlast]
        exact hnext
      · exact (ih (by omega) (by omega)).trans hnext

/-- The number of days of a year. -/
def yearLength (year : Nat) : Nat :=
  if isLeap year then 366 else 365

theorem daysBeforeYear_succ {year : Nat} (h : 0 < year) :
    daysBeforeYear (year + 1) = daysBeforeYear year + yearLength year := by
  obtain ⟨before, rfl⟩ : ∃ before, year = before + 1 := ⟨year - 1, by omega⟩
  -- what a leap year adds to the count of the years before it
  have hfourth := Nat.succ_div (a := before) (b := 4)
  have hcentury := Nat.succ_div (a := before) (b := 100)
  have hcycle := Nat.succ_div (a := before) (b := 400)
  simp only [Nat.dvd_iff_mod_eq_zero] at hfourth hcentury hcycle
  have hleast : before / 100 ≤ before / 4 := Nat.div_le_div_left (by decide) (by decide)
  have hleast' : (before + 1) / 100 ≤ (before + 1) / 4 :=
    Nat.div_le_div_left (by decide) (by decide)
  have h100 : (before + 1) % 100 = 0 → (before + 1) % 4 = 0 := by omega
  have h400 : (before + 1) % 400 = 0 → (before + 1) % 100 = 0 := by omega
  unfold daysBeforeYear yearLength isLeap
  simp only [Nat.add_sub_cancel, decide_eq_true_eq]
  generalize (before + 1) % 4 = r₄ at *
  generalize (before + 1) % 100 = r₁₀₀ at *
  generalize (before + 1) % 400 = r₄₀₀ at *
  generalize (before + 1) / 4 = q₄ at *
  generalize (before + 1) / 100 = q₁₀₀ at *
  generalize (before + 1) / 400 = q₄₀₀ at *
  split_ifs at * <;> omega

theorem daysBeforeYear_mono {year year' : Nat} (h : year ≤ year') :
    daysBeforeYear year ≤ daysBeforeYear year' := by
  refine monotone_nat_of_le_succ (fun year => ?_) h
  by_cases hyear : 0 < year
  · rw [daysBeforeYear_succ hyear]
    exact Nat.le_add_right _ _
  · obtain rfl : year = 0 := by omega
    exact Nat.le_refl _

/-- A year is over before the next begins. -/
theorem daysBeforeYear_lt {year year' : Nat} (hpositive : 0 < year) (h : year < year') :
    daysBeforeYear year + yearLength year ≤ daysBeforeYear year' := by
  rw [← daysBeforeYear_succ hpositive]
  exact daysBeforeYear_mono h

/-- The day of this ordinal is the day of this year that has so many days before it. -/
structure DayIn (ordinal year days : Nat) : Prop where
  positive : 0 < year
  counted : daysBeforeYear year + days + 1 = ordinal
  within : days < yearLength year
  named : ord2ymd ordinal = (year, dayOfYear (isLeap year) days)

/-- The days before a year, by the cycles it is counted in. -/
theorem daysBeforeYear_cycles (a : Nat) {b c d : Nat} (hb : b < 4) (hc : c < 25) (hd : d < 4) :
    daysBeforeYear (400 * a + 100 * b + 4 * c + d + 1) =
      146097 * a + 36524 * b + 1461 * c + 365 * d := by
  have hfour : (400 * a + 100 * b + 4 * c + d) / 4 = 100 * a + 25 * b + c := by omega
  have hcentury : (400 * a + 100 * b + 4 * c + d) / 100 = 4 * a + b := by omega
  have hcycle : (400 * a + 100 * b + 4 * c + d) / 400 = a := by omega
  unfold daysBeforeYear
  simp only [Nat.add_sub_cancel, hfour, hcentury, hcycle]
  omega

theorem isLeap_cycles (a : Nat) {b c d : Nat} (hb : b < 4) (hc : c < 25) (hd : d < 4) :
    isLeap (400 * a + 100 * b + 4 * c + d + 1) = decide (d = 3 ∧ (c ≠ 24 ∨ b = 3)) := by
  have hfour : (400 * a + 100 * b + 4 * c + d + 1) % 4 = 0 ↔ d = 3 := by omega
  have hcentury : (400 * a + 100 * b + 4 * c + d + 1) % 100 = 0 ↔ c = 24 ∧ d = 3 := by omega
  have hcycle : (400 * a + 100 * b + 4 * c + d + 1) % 400 = 0 ↔ b = 3 ∧ c = 24 ∧ d = 3 := by omega
  unfold isLeap
  rw [decide_eq_decide, hfour, ne_eq, hcentury, hcycle]
  tauto

/-- The last day of a leap year. -/
theorem dayOfYear_last : dayOfYear true 365 = (12, 31) := by decide

/-- **Every day is found in its year.** -/
theorem ord2ymd_dayIn {ordinal : Nat} (h : 0 < ordinal) : ∃ year days, DayIn ordinal year days := by
  obtain ⟨n, rfl⟩ : ∃ n, ordinal = n + 1 := ⟨ordinal - 1, by omega⟩
  obtain ⟨name, hname⟩ : ∃ name, ord2ymd (n + 1) = name := ⟨_, rfl⟩
  have hnamed := hname
  unfold ord2ymd at hnamed
  have ha := Nat.div_add_mod n 146097
  have hb := Nat.div_add_mod (n % 146097) 36524
  have hc := Nat.div_add_mod (n % 146097 % 36524) 1461
  have hd := Nat.div_add_mod (n % 146097 % 36524 % 1461) 365
  have ha' := Nat.mod_lt n (show 146097 > 0 by decide)
  have hb' := Nat.mod_lt (n % 146097) (show 36524 > 0 by decide)
  have hc' := Nat.mod_lt (n % 146097 % 36524) (show 1461 > 0 by decide)
  have hd' := Nat.mod_lt (n % 146097 % 36524 % 1461) (show 365 > 0 by decide)
  simp only [Nat.add_sub_cancel] at hnamed
  generalize n / 146097 = a at *
  generalize n % 146097 = n₁ at *
  generalize n₁ / 36524 = b at *
  generalize n₁ % 36524 = n₂ at *
  generalize n₂ / 1461 = c at *
  generalize n₂ % 1461 = n₃ at *
  generalize n₃ / 365 = d at *
  generalize n₃ % 365 = days at *
  by_cases hlast : d = 4 ∨ b = 4
  · -- the last day of a leap year, counted past the end of its cycle
    obtain ⟨b', c', hb₄, hc₂₅, hleap, hyear, hdays⟩ : ∃ b' c', b' < 4 ∧ c' < 25 ∧
        (c' ≠ 24 ∨ b' = 3) ∧ a * 400 + 1 + b * 100 + c * 4 + d - 1 =
          400 * a + 100 * b' + 4 * c' + 3 + 1 ∧
        146097 * a + 36524 * b' + 1461 * c' + 365 * 3 + 365 = n := by
      by_cases hcycle : b = 4
      · exact ⟨3, 24, by omega, by omega, by omega, by omega, by omega⟩
      · exact ⟨b, c, by omega, by omega, by omega, by omega, by omega⟩
    have hisLeap := isLeap_cycles a hb₄ hc₂₅ (show 3 < 4 by decide)
    rw [decide_eq_true ⟨rfl, hleap⟩] at hisLeap
    rw [if_pos hlast, hyear] at hnamed
    refine ⟨400 * a + 100 * b' + 4 * c' + 3 + 1, 365, Nat.succ_pos _, ?_, ?_,
      hname.trans (hnamed.symm.trans ?_)⟩
    · rw [daysBeforeYear_cycles a hb₄ hc₂₅ (by decide), hdays]
    · unfold yearLength
      rw [hisLeap]
      decide
    · rw [hisLeap, dayOfYear_last]
  · have hb₄ : b < 4 := by omega
    have hc₂₅ : c < 25 := by omega
    have hd₄ : d < 4 := by omega
    have hyear : a * 400 + 1 + b * 100 + c * 4 + d = 400 * a + 100 * b + 4 * c + d + 1 := by omega
    have hisLeap := isLeap_cycles a hb₄ hc₂₅ hd₄
    rw [if_neg hlast, hyear, ← hisLeap] at hnamed
    refine ⟨400 * a + 100 * b + 4 * c + d + 1, days, Nat.succ_pos _, ?_, ?_,
      hname.trans (hnamed.symm.trans ?_)⟩
    · rw [daysBeforeYear_cycles a hb₄ hc₂₅ hd₄]
      omega
    · unfold yearLength
      split_ifs <;> omega
    · unfold dayOfYear
      dsimp only
      split_ifs <;> rfl

/-- A date is earlier by its year, its month or its day. -/
def Dated (d d' : Nat × Nat × Nat) : Prop :=
  d.1 < d'.1 ∨ d.1 = d'.1 ∧ Earlier d.2 d'.2

theorem Dated.not_symm {d d' : Nat × Nat × Nat} (h : Dated d d') : ¬ Dated d' d := by
  unfold Dated Earlier at *
  omega

theorem DayIn.dated {n n' year year' days days' : Nat} (h : DayIn n year days)
    (h' : DayIn n' year' days') (hlt : n < n') : Dated (ord2ymd n) (ord2ymd n') := by
  have hcounted := h.counted
  have hcounted' := h'.counted
  have hwithin := h.within
  have hwithin' := h'.within
  rw [h.named, h'.named]
  rcases Nat.lt_trichotomy year year' with hyear | rfl | hyear
  · exact Or.inl hyear
  · have hlength : yearLength year ≤ 366 := by
      unfold yearLength
      split_ifs <;> decide
    exact Or.inr ⟨rfl, dayOfYear_earlier (by omega) (by omega)⟩
  · have hover := daysBeforeYear_lt h'.positive hyear
    omega

/-- **Later days have later names.** -/
theorem ord2ymd_dated {n n' : Nat} (h : 0 < n) (h' : 0 < n') :
    Dated (ord2ymd n) (ord2ymd n') ↔ n < n' := by
  obtain ⟨year, days, hday⟩ := ord2ymd_dayIn h
  obtain ⟨year', days', hday'⟩ := ord2ymd_dayIn h'
  refine ⟨fun hdated => ?_, hday.dated hday'⟩
  rcases Nat.lt_trichotomy n n' with hlt | rfl | hlt
  · exact hlt
  · exact absurd hdated hdated.not_symm
  · exact absurd (hday'.dated hday hlt) hdated.not_symm

theorem ord2ymd_inj {n n' : Nat} (h : 0 < n) (h' : 0 < n') (hsame : ord2ymd n = ord2ymd n') :
    n = n' := by
  have hirreflexive : ¬ Dated (ord2ymd n') (ord2ymd n') := fun hdated => hdated.not_symm hdated
  have hlt := ord2ymd_dated h h'
  have hgt := ord2ymd_dated h' h
  rw [hsame] at hlt hgt
  have hnot := mt hlt.mpr hirreflexive
  have hnot' := mt hgt.mpr hirreflexive
  omega

/-- The fields of a date of the calendar fit their widths. -/
theorem ord2ymd_fits {n : Nat} (h : 0 < n) (hlast : n ≤ 3652059) :
    (ord2ymd n).1 < 10 ^ 4 ∧ (ord2ymd n).2.1 < 10 ^ 2 ∧ (ord2ymd n).2.2 < 10 ^ 2 := by
  obtain ⟨year, days, hday⟩ := ord2ymd_dayIn h
  have hcounted := hday.counted
  have hwithin := hday.within
  have hlength : yearLength year ≤ 366 := by
    unfold yearLength
    split_ifs <;> decide
  rw [hday.named]
  refine ⟨?_, dayOfYear_fits _ days (by omega)⟩
  by_contra hlarge
  have hbefore : daysBeforeYear (10 ^ 4) ≤ daysBeforeYear year := daysBeforeYear_mono (by omega)
  have hcalendar : daysBeforeYear (10 ^ 4) = 3652059 := by decide
  omega

/-! ### The text -/

/-- The fraction of a second, where there is one. -/
def fractionText (fraction : Nat) : List Char :=
  if fraction = 0 then [] else '.' :: pad 6 fraction

theorem fractionText_lt_iff {f f' : Nat} (h : f < 10 ^ 6) (h' : f' < 10 ^ 6) :
    fractionText f < fractionText f' ↔ f < f' := by
  unfold fractionText
  split_ifs with hzero hzero' hzero'
  · simp only [List.not_lt_nil, false_iff]
    omega
  · simp only [List.nil_lt_cons, true_iff]
    omega
  · simp only [List.not_lt_nil, false_iff]
    omega
  · rw [List.cons_lt_cons_iff, pad_lt_iff h h']
    simp

def clockText (seconds fraction : Nat) : List Char :=
  pad 2 (seconds / 3600) ++ ':' :: (pad 2 (seconds / 60 % 60) ++ ':' ::
    (pad 2 (seconds % 60) ++ fractionText fraction))

theorem clockText_lt_iff {s s' f f' : Nat} (hs : s < 86400) (hs' : s' < 86400) (hf : f < 10 ^ 6)
    (hf' : f' < 10 ^ 6) :
    clockText s f < clockText s' f' ↔ s < s' ∨ s = s' ∧ f < f' := by
  unfold clockText
  rw [pad_cons_lt_iff (by omega) (by omega), pad_cons_lt_iff (by omega) (by omega),
    pad_append_lt_iff (by omega) (by omega), fractionText_lt_iff hf hf']
  omega

def dateText (d : Nat × Nat × Nat) (clock : List Char) : List Char :=
  pad 4 d.1 ++ '-' :: (pad 2 d.2.1 ++ '-' :: (pad 2 d.2.2 ++ 'T' :: clock))

theorem dateText_lt_iff {n n' : Nat} (h : 0 < n) (hlast : n ≤ 3652059) (h' : 0 < n')
    (hlast' : n' ≤ 3652059) (x y : List Char) :
    dateText (ord2ymd n) x < dateText (ord2ymd n') y ↔ n < n' ∨ n = n' ∧ x < y := by
  obtain ⟨hyear, hmonth, hday⟩ := ord2ymd_fits h hlast
  obtain ⟨hyear', hmonth', hday'⟩ := ord2ymd_fits h' hlast'
  have hsame : n = n' ↔ (ord2ymd n).1 = (ord2ymd n').1 ∧ (ord2ymd n).2.1 = (ord2ymd n').2.1 ∧
      (ord2ymd n).2.2 = (ord2ymd n').2.2 := by
    constructor
    · rintro rfl
      exact ⟨rfl, rfl, rfl⟩
    · rintro ⟨h₁, h₂, h₃⟩
      exact ord2ymd_inj h h' (Prod.ext h₁ (Prod.ext h₂ h₃))
  unfold dateText
  rw [pad_cons_lt_iff hyear hyear', pad_cons_lt_iff hmonth hmonth', pad_cons_lt_iff hday hday',
    ← ord2ymd_dated h h', hsame]
  unfold Dated Earlier
  tauto

theorem toList_zeroPad {width n : Nat} (hwidth : 0 < width) (h : n < 10 ^ width) :
    (zeroPad width n).toList = pad width n := by
  have hlength : (toString n).length = (Nat.toDigits 10 n).length := by
    rw [Nat.toString_eq_repr, ← String.length_toList, Nat.toList_repr]
  unfold zeroPad
  dsimp only
  rw [String.toList_append, String.toList_ofList, hlength, Nat.toString_eq_repr, Nat.toList_repr,
    replicate_append_toDigits hwidth h]

/-- The clock reading is of a year that four digits write, the years a `datetime` has. -/
def FourDigitYear (t : Time) : Prop :=
  dayMicros ≤ t ∧ t < 3652060 * dayMicros

/-- Such a reading is a day of the calendar and a time of that day. -/
theorem FourDigitYear.day {t : Int} (h : FourDigitYear t) :
    0 < (t / dayMicros).toNat ∧ (t / dayMicros).toNat ≤ 3652059 ∧
      (t % dayMicros).toNat < 86400 * 1000000 := by
  have hmicros : dayMicros = 86400000000 := by decide
  have hfirst : dayMicros ≤ t := h.1
  have hlast : t < 3652060 * dayMicros := h.2
  rw [hmicros] at *
  omega

theorem toList_isoformat {t : Time} (h : FourDigitYear t) :
    (isoformat t).toList = dateText (ord2ymd (t / dayMicros).toNat)
      (clockText ((t % dayMicros).toNat / 1000000) ((t % dayMicros).toNat % 1000000)) := by
  obtain ⟨hfirst, hlast, hmicros⟩ := h.day
  have hfits := ord2ymd_fits hfirst hlast
  unfold isoformat dateText clockText fractionText
  generalize ord2ymd (t / dayMicros).toNat = date at *
  generalize (t % dayMicros).toNat = micros at *
  obtain ⟨year, month, day⟩ := date
  obtain ⟨hyear, hmonth, hday⟩ := hfits
  dsimp only at hyear hmonth hday ⊢
  split_ifs <;>
    simp only [String.toList_append, toList_zeroPad (show 0 < 4 by decide) hyear,
      toList_zeroPad (show 0 < 2 by decide) hmonth, toList_zeroPad (show 0 < 2 by decide) hday,
      toList_zeroPad (show 0 < 2 by decide) (show micros / 1000000 / 3600 < 10 ^ 2 by omega),
      toList_zeroPad (show 0 < 2 by decide) (show micros / 1000000 / 60 % 60 < 10 ^ 2 by omega),
      toList_zeroPad (show 0 < 2 by decide) (show micros / 1000000 % 60 < 10 ^ 2 by omega),
      toList_zeroPad (show 0 < 6 by decide) (show micros % 1000000 < 10 ^ 6 by omega),
      List.append_assoc]
  all_goals simp

/-- **The texts of two clock readings are ordered as the readings are.** -/
theorem isoformat_lt_iff {a b : Int} (ha : FourDigitYear a) (hb : FourDigitYear b) :
    isoformat a < isoformat b ↔ a < b := by
  rw [String.lt_iff, toList_isoformat ha, toList_isoformat hb]
  obtain ⟨hfirst, hlast, hmicros⟩ := ha.day
  obtain ⟨hfirst', hlast', hmicros'⟩ := hb.day
  rw [dateText_lt_iff hfirst hlast hfirst' hlast',
    clockText_lt_iff (by omega) (by omega) (by omega) (by omega)]
  have hday : dayMicros = 86400000000 := by decide
  simp only [hday] at hfirst hmicros hfirst' hmicros' ⊢
  omega

/-! ### Notices under a lease -/

section

variable {e : Env} {db : Db} {row row' : RoastReservation} {r r' : Round} {warrant : Warrant}
  {rolls : List DailyRoll} {members : List RoastReservationParticipant} {w w' : World}
  {event : Event} {events : List Event} {notice : WaitingNotice} {token : String}

/-- A notice that is leased afterwards was there before. -/
def LeasedBefore (row row' : RoastReservation) : Prop :=
  ∀ notice, row'.waitingNotice = some notice → notice.status = .processing →
    row.waitingNotice = some notice

theorem LeasedBefore.of_none (h : row'.waitingNotice = none) : LeasedBefore row row' := by
  intro notice hnotice
  rw [h] at hnotice
  cases hnotice

theorem LeasedBefore.of_eq (h : row'.waitingNotice = row.waitingNotice) :
    LeasedBefore row row' := by
  intro notice hnotice _
  rw [← h]
  exact hnotice

theorem LeasedBefore.trans {row'' : RoastReservation} (h : LeasedBefore row row')
    (h' : LeasedBefore row' row'') : LeasedBefore row row'' := by
  intro notice hnotice hstatus
  exact h notice (h' notice hnotice hstatus) hstatus

/-- An arrival queues a notice, it leases none. -/
theorem activateReservation_leased (e : Env) (members : List RoastReservationParticipant)
    (row : RoastReservation) (pigId : String) (notify : Bool) :
    LeasedBefore row (activateReservation e members row pigId notify).1 := by
  rcases activateReservation_notice e members row pigId notify with heq | heq
  · rw [heq]
    exact .of_none rfl
  · rw [heq]
    intro notice hnotice hstatus
    dsimp only at hnotice
    split_ifs at hnotice
    · obtain rfl := Option.some.inj hnotice
      cases hstatus
    · exact hnotice

theorem activateIfArrived_leased (e : Env) (members : List RoastReservationParticipant)
    (row : RoastReservation) (pigId : String) (notify : Bool) :
    LeasedBefore row (activateIfArrived e members row pigId notify) := by
  unfold activateIfArrived
  split_ifs
  · exact activateReservation_leased e members row pigId notify
  · exact .of_eq rfl

theorem announceThreshold_leased (previousRequired : Nat) (row : RoastReservation) :
    LeasedBefore row (announceThreshold previousRequired row) := by
  unfold announceThreshold
  split_ifs
  · intro notice hnotice hstatus
    obtain rfl := Option.some.inj hnotice
    cases hstatus
  · exact .of_eq rfl

theorem advanceNotice_leased {next : WaitingNotice} {action : NoticeAction}
    (h : advanceNotice notice action = some next) : next.status ≠ .processing := by
  unfold advanceNotice at h
  split at h
  all_goals
    first
    | (obtain rfl := Option.some.inj h; simp)
    | exact absurd h (by simp)

/-- **Only a claim leases a notice.** -/
theorem RoundStep.leased (h : RoundStep warrant rolls r r')
    (hclaims : ∀ req, ¬ warrant.claims req) : LeasedBefore r.row r'.row := by
  cases h with
  | busy req =>
      obtain ⟨bot, version, heq⟩ := updateDeliveryCapability_eq _ req
      refine .of_eq ?_
      dsimp only
      rw [heq]
  | confirm => exact .of_none rfl
  | join e req roll | upgrade e req roll => exact .of_none (joinedRow_notice e req roll _ _)
  | @takeover row members e req roll =>
      have htaken : LeasedBefore row (takenOver row members req) := .of_eq rfl
      exact htaken.trans (activateIfArrived_leased e members _ _ true)
  | @sync row members e protection removed =>
      have hgoverned : LeasedBefore row (governedRow protection removed row) := .of_eq rfl
      dsimp only
      unfold syncReservation
      split_ifs
      · exact (hgoverned.trans (activateReservation_leased e _ _ _ _)).trans
          (announceThreshold_leased _ _)
      · exact hgoverned
  | @arrive row members e pigId handledId =>
      dsimp only
      unfold arriveRow
      dsimp only
      split_ifs
      · exact .of_none rfl
      · exact activateReservation_leased e members row pigId _
  | capability req hcan hserves => exact absurd hserves (hclaims req)
  | lease e req token hcan hserves => exact absurd hserves (hclaims req)
  | leaseNotice e req token hcan hserves => exact absurd hserves (hclaims req)
  | notice next hopen hreports before hbefore action hnext =>
      intro notice hnotice hstatus
      obtain rfl := Option.some.inj hnotice
      exact absurd hstatus (advanceNotice_leased hnext)
  | settle | confirmOutcome =>
      refine .of_eq ?_
      unfold markPrepared
      split_ifs <;> rfl
  | complete =>
      refine .of_eq ?_
      unfold completedRow
      split_ifs <;> rfl
  | save | send | release => exact .of_eq rfl

theorem RoundSteps.leased (h : RoundSteps warrant rolls r r')
    (hclaims : ∀ req, ¬ warrant.claims req) : LeasedBefore r.row r'.row := by
  induction h with
  | refl => exact .of_eq rfl
  | tail _ hstep ih => exact ih.trans (hstep.leased hclaims)

/-- A claim hands the waiting notice of this round out under this token. -/
def Event.leasesNotice (event : Event) (id token : String) : Prop :=
  match event.action, event.response with
  | .request (.claim _) _, .claim response =>
      ∃ item ∈ response.waitingNotices, item.reservationId = id ∧ item.claimToken = token
  | _, _ => False

/-- What a claim leaves of notices: they were there, or it hands them out with its own time. -/
theorem claim_leased (h : db.Sound) {req : RoastReservationClaimRequest}
    (hrow' : row' ∈ (claim e req db).2.reservations) :
    (∃ row ∈ db.reservations, row.reservationId = row'.reservationId ∧
        row'.waitingNotice = row.waitingNotice) ∨
      ∃ token, row'.waitingNotice = some
          { status := .processing, claimToken := some token, claimedAt := some (isoformat e.now) } ∧
        ∃ item ∈ (claim e req db).1.waitingNotices,
          item.reservationId = row'.reservationId ∧ item.claimToken = token := by
  have hdeclared : ∀ row ∈ (declareCapability req db).reservations, ∃ old ∈ db.reservations,
      old.reservationId = row.reservationId ∧ row.waitingNotice = old.waitingNotice := by
    intro row hrow
    have hmap := declareCapability_map (fun row => (row.reservationId, row.waitingNotice))
      (fun _ _ => rfl) h.ids req
    have hmem : (row.reservationId, row.waitingNotice) ∈
        db.reservations.map fun row => (row.reservationId, row.waitingNotice) := by
      rw [← hmap]
      exact List.mem_map_of_mem hrow
    obtain ⟨old, hold, hsame⟩ := List.mem_map.mp hmem
    obtain ⟨hid, hnotice⟩ := Prod.mk.inj hsame
    exact ⟨old, hold, hid, hnotice.symm⟩
  rcases Tables.mem_writeBack hrow' with ⟨hold, -⟩ | ⟨hnew, -⟩
  · refine Or.inl ?_
    rcases Tables.mem_writeBack hold with ⟨hrow, -⟩ | ⟨hleased, -⟩
    · exact hdeclared row' hrow
    · obtain ⟨row, hrow, i, -, rfl⟩ := mem_leaseRows hleased
      exact hdeclared row hrow
  · refine Or.inr ?_
    obtain ⟨row, -, i, -, rfl⟩ := mem_leaseNotices hnew
    exact ⟨e.uuid i, rfl, _, List.mem_map_of_mem hnew, rfl, rfl⟩

/-- The notice is under a lease that one of these events gave out, at the time it carries. -/
def LeaseGiven (events : List Event) (id : String) (notice : WaitingNotice) : Prop :=
  ∃ event ∈ events, ∃ token, notice.claimToken = some token ∧ event.leasesNotice id token ∧
    notice.claimedAt = some (isoformat event.env.now)

theorem LeaseGiven.mono {events' : List Event} {id : String} (h : LeaseGiven events id notice) :
    LeaseGiven (events ++ events') id notice := by
  obtain ⟨event, hevent, hgiven⟩ := h
  exact ⟨event, List.mem_append_left _ hevent, hgiven⟩

/-- One step of the service: the notice was leased before, or the step leases it. -/
theorem notice_leased_step (hsound : w.Sound) (hstep : service.step w event w')
    (hrow' : row' ∈ w'.db.reservations) (hnotice : row'.waitingNotice = some notice)
    (hstatus : notice.status = .processing) :
    (∃ row ∈ w.db.reservations, row.reservationId = row'.reservationId ∧
        row.waitingNotice = some notice) ∨
      LeaseGiven [event] row'.reservationId notice := by
  by_cases hclaims : ∃ req view, event.action = .request (.claim req) view
  · obtain ⟨req, view, haction⟩ := hclaims
    obtain ⟨-, -, hresponse, rfl⟩ := hstep
    rw [haction] at hresponse
    have hafter : row' ∈ (claim event.env req w.db).2.reservations := by
      rw [haction] at hrow'
      exact hrow'
    rcases claim_leased hsound.db hafter with ⟨row, hrow, hid, hsame⟩ | ⟨token, hleased, hitem⟩
    · exact Or.inl ⟨row, hrow, hid, hsame.symm.trans hnotice⟩
    · obtain rfl := Option.some.inj (hleased.symm.trans hnotice)
      refine Or.inr ⟨event, List.mem_singleton_self event, token, rfl, ?_, rfl⟩
      unfold Event.leasesNotice
      rw [haction, hresponse]
      exact hitem
  · have hnone : ∀ req, ¬ event.warrant.claims req := by
      intro req hserves
      unfold Event.warrant at hserves
      cases haction : event.action with
      | reconcile flight =>
          rw [haction] at hserves
          exact hserves
      | request request view =>
          rw [haction] at hserves
          cases request with
          | claim req => exact hclaims ⟨req, view, haction⟩
          | _ => exact hserves
    rcases hsound.step_round hstep hrow' with ⟨row, hrow, hid, hsteps⟩ | ⟨hborn, -⟩
    · exact Or.inl ⟨row, hrow, hid, hsteps.leased hnone notice hnotice hstatus⟩
    · have hsilent : row'.waitingNotice = none := hborn.silent
      rw [hsilent] at hnotice
      cases hnotice

/-- **A notice under a lease carries the time of the claim that leased it.** -/
theorem leases_given (h : Run service {} events w) :
    ∀ row ∈ w.db.reservations, ∀ notice, row.waitingNotice = some notice →
      notice.status = .processing → LeaseGiven events row.reservationId notice := by
  induction h with
  | nil =>
      intro row hrow
      cases hrow
  | @snoc w w' events event hrun hstep ih =>
      intro row' hrow' notice hnotice hstatus
      have hsound := sound_of_reachable ⟨{}, events, rfl, hrun⟩
      rcases notice_leased_step hsound hstep hrow' hnotice hstatus with ⟨row, hrow, hid, hsame⟩ | hgiven
      · rw [← hid]
        exact (ih row hrow notice hsame hstatus).mono
      · obtain ⟨given, hmem, hgiven⟩ := hgiven
        exact ⟨given, List.mem_append_right _ hmem, hgiven⟩

/-! ### The test for a stale lease -/

/-- A row with a notice under a lease is selected as one whose notice is queued, once the
text of the lease is behind. -/
theorem noticeClaimable_leased {e : Env} {req : RoastReservationClaimRequest} {claimedAt : String}
    (hnotice : row.waitingNotice = some notice) (hstatus : notice.status = .processing)
    (hclaimed : notice.claimedAt = some claimedAt) :
    noticeClaimable e req row = true ↔
      noticeClaimable e req { row with waitingNotice := some { status := .pending } } = true ∧
        claimedAt < isoformat (e.now - roastReservationClaimTimeout) := by
  unfold noticeClaimable deliveredBy
  rw [hnotice]
  simp [hstatus, hclaimed]

/-- **The lease of a notice runs out by the clock.**  Texts of clock readings are ordered as
the readings are.  So in every run a notice under a lease was handed out by a claim of the
run, and a later claim selects its round exactly if it would select it with a queued notice,
and the claim before it is more than five minutes past. -/
theorem stale_notices_selected :
    (∀ a b : Time, FourDigitYear a → FourDigitYear b → (isoformat a < isoformat b ↔ a < b)) ∧
      ∀ events w, Run service {} events w → (∀ event ∈ events, FourDigitYear event.env.now) →
        ∀ row ∈ w.db.reservations, ∀ notice, row.waitingNotice = some notice →
          notice.status = .processing →
            ∃ event ∈ events, ∃ token, notice.claimToken = some token ∧
              event.leasesNotice row.reservationId token ∧
                ∀ (e : Env) (req : RoastReservationClaimRequest),
                  FourDigitYear (e.now - minutes 5) →
                    (noticeClaimable e req row = true ↔
                      noticeClaimable e req
                          { row with waitingNotice := some { status := .pending } } = true ∧
                        event.env.now < e.now - minutes 5) := by
  refine ⟨fun a b ha hb => isoformat_lt_iff ha hb, ?_⟩
  intro events w hrun hyears row hrow notice hnotice hstatus
  obtain ⟨event, hevent, token, htoken, hleases, hclaimed⟩ :=
    leases_given hrun row hrow notice hnotice hstatus
  refine ⟨event, hevent, token, htoken, hleases, fun e req hyear => ?_⟩
  rw [noticeClaimable_leased hnotice hstatus hclaimed]
  exact and_congr_right fun _ => isoformat_lt_iff (hyears event hevent) hyear

/-- A full second is written without a fraction, and the texts compare all the same. -/
theorem stale_notices_selected_script :
    isoformat (739000 * dayMicros + 999999) < isoformat (739000 * dayMicros + 1000000) ∧
      ∃ row ∈ (scriptWorld noticeScript).db.reservations, ∃ notice,
        row.waitingNotice = some notice ∧ ∃ event ∈ scriptEvents noticeScript, ∃ token,
          notice.claimToken = some token ∧ event.leasesNotice row.reservationId token ∧
            ∀ (e : Env) (req : RoastReservationClaimRequest), FourDigitYear (e.now - minutes 5) →
              (noticeClaimable e req row = true ↔
                noticeClaimable e req
                    { row with waitingNotice := some { status := .pending } } = true ∧
                  event.env.now < e.now - minutes 5) := by
  have hrun : Run service {} (scriptEvents noticeScript) (scriptWorld noticeScript) :=
    script_run (by decide +kernel)
  have hyears : ∀ event ∈ scriptEvents noticeScript, FourDigitYear event.env.now := by
    unfold FourDigitYear
    decide +kernel
  have hleased : ∃ row ∈ (scriptWorld noticeScript).db.reservations, ∃ notice,
      row.waitingNotice = some notice ∧ notice.status = .processing := by
    have hfound : ((scriptWorld noticeScript).db.reservations.any fun row =>
        row.waitingNotice.any fun notice => notice.status = .processing) = true := by
      decide +kernel
    obtain ⟨row, hrow, hany⟩ := List.any_eq_true.mp hfound
    cases hnotice : row.waitingNotice with
    | none =>
        rw [hnotice] at hany
        cases hany
    | some notice =>
        rw [hnotice] at hany
        exact ⟨row, hrow, notice, hnotice, of_decide_eq_true hany⟩
  obtain ⟨row, hrow, notice, hnotice, hstatus⟩ := hleased
  refine ⟨(stale_notices_selected.1 _ _ ?_ ?_).mpr ?_, row, hrow, notice, hnotice,
    stale_notices_selected.2 _ _ hrun hyears row hrow notice hnotice hstatus⟩
  · unfold FourDigitYear
    decide
  · unfold FourDigitYear
    decide
  · decide

end

end RollPig
