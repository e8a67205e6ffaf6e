/-
Tables as lists of rows.

A table is the list of its rows in the order of their primary keys, so inserting
appends.  A transaction reads rows, changes them in memory and writes them back
under their key when the session is flushed; `writeBack` is that flush.  A unique
key is a `Nodup` on the column list.  Nothing here knows what the rows are.
-/
import Mathlib.Data.List.Induction
import Mathlib.Data.List.Nodup

namespace Tables

variable {α κ : Type*}

/-- Write the changed rows back: every row of the table whose key one of `rows`
carries is replaced by that row, and the others stay. -/
def writeBack [DecidableEq κ] (key : α → κ) (rows t : List α) : List α :=
  t.map fun r => (rows.find? fun x => key x = key r).getD r

/-- The rows under one key are unique. -/
def Unique (key : α → κ) (t : List α) : Prop :=
  (t.map key).Nodup

instance [DecidableEq κ] (key : α → κ) (t : List α) : Decidable (Unique key t) :=
  inferInstanceAs (Decidable (t.map key).Nodup)

variable {key : α → κ} {rows t : List α}

/-! ### Unique keys -/

/-- Two rows of one key are one row. -/
theorem Unique.eq (h : Unique key t) {x y : α} (hx : x ∈ t) (hy : y ∈ t) (hkey : key x = key y) :
    x = y :=
  List.inj_on_of_nodup_map h hx hy hkey

/-- Inserting a row under a new key keeps the key unique. -/
theorem Unique.insert (h : Unique key t) {x : α} (hx : ∀ r ∈ t, key r ≠ key x) :
    Unique key (t ++ [x]) := by
  unfold Unique
  rw [List.map_append, List.nodup_append]
  refine ⟨h, by simp, ?_⟩
  intro a ha b hb hab
  obtain ⟨r, hr, rfl⟩ := List.mem_map.mp ha
  obtain rfl : b = key x := by simpa using hb
  exact hx r hr hab

theorem Unique.filter (h : Unique key t) (p : α → Bool) : Unique key (t.filter p) :=
  (List.filter_sublist.map key).nodup h

/-- Among some of the rows another column may be unique: one that settles the key there. -/
theorem Unique.part {β : Type*} {column : α → β} (h : Unique key t) {p : α → Bool}
    (hkey : ∀ r r', p r = true → p r' = true → column r = column r' → key r = key r') :
    Unique column (t.filter p) := by
  have hpart := h.filter p
  refine (List.Nodup.of_map key hpart).map_on fun r hr r' hr' hsame => hpart.eq hr hr' ?_
  exact hkey r r' (List.mem_filter.mp hr).2 (List.mem_filter.mp hr').2 hsame

/-- Tables with the same keys in the same order show the same, where rows of one key do. -/
theorem map_eq_of_keys {β : Type*} {f g : α → β} {t' : List α} (hkeys : t'.map key = t.map key)
    (h : ∀ r' ∈ t', ∀ r ∈ t, key r' = key r → f r' = g r) : t'.map f = t.map g := by
  induction t generalizing t' with
  | nil =>
      rw [List.map_nil, List.map_eq_nil_iff] at hkeys
      rw [hkeys]
      rfl
  | cons r t ih =>
      obtain ⟨r', rest, rfl, hkey, hrest⟩ := List.map_eq_cons_iff.mp hkeys
      rw [List.map_cons, List.map_cons, h r' (by simp) r (by simp) hkey]
      congr 1
      exact ih hrest fun a ha b hb => h a (List.mem_cons_of_mem r' ha) b (List.mem_cons_of_mem r hb)

/-! ### Flushing changed rows -/

section

variable [DecidableEq κ]

@[simp] theorem writeBack_nil : writeBack key [] t = t := by
  simp [writeBack]

/-- A row of the table after a flush is an old row no changed row speaks for, or
one of the changed rows, standing where a row of its key stood. -/
theorem mem_writeBack {x : α} (h : x ∈ writeBack key rows t) :
    (x ∈ t ∧ ∀ y ∈ rows, key y ≠ key x) ∨ (x ∈ rows ∧ ∃ r ∈ t, key r = key x) := by
  obtain ⟨r, hr, rfl⟩ := List.mem_map.mp h
  cases hfind : rows.find? fun x => key x = key r with
  | none =>
      refine Or.inl ⟨by simpa [hfind] using hr, ?_⟩
      intro y hy
      simpa [hfind] using List.find?_eq_none.mp hfind y hy
  | some y =>
      refine Or.inr ⟨by simpa [hfind] using List.mem_of_find?_eq_some hfind, r, hr, ?_⟩
      have hkey := List.find?_some hfind
      simp only [decide_eq_true_eq] at hkey
      simp [hkey]

/-- A flush keeps every key in its place. -/
@[simp] theorem map_key_writeBack : (writeBack key rows t).map key = t.map key := by
  unfold writeBack
  rw [List.map_map]
  refine List.map_congr_left fun r _ => ?_
  cases hfind : rows.find? fun x => key x = key r with
  | none => simp [hfind]
  | some y =>
      have hkey := List.find?_some hfind
      simp only [decide_eq_true_eq] at hkey
      simp [hfind, hkey]

/-- Any column the changed rows agree with the table on is kept by a flush. -/
theorem map_writeBack {β : Type*} (f : α → β)
    (h : ∀ y ∈ rows, ∀ r ∈ t, key y = key r → f y = f r) :
    (writeBack key rows t).map f = t.map f := by
  unfold writeBack
  rw [List.map_map]
  refine List.map_congr_left fun r hr => ?_
  cases hfind : rows.find? fun x => key x = key r with
  | none => simp [hfind]
  | some y =>
      have hkey := List.find?_some hfind
      simp only [decide_eq_true_eq] at hkey
      simpa [hfind] using h y (List.mem_of_find?_eq_some hfind) r hr hkey

/-- A changed row whose key the table has is in the table after the flush, when
the changed rows have distinct keys. -/
theorem mem_writeBack_of_mem (hrows : Unique key rows) {x r : α} (hx : x ∈ rows) (hr : r ∈ t)
    (hkey : key r = key x) : x ∈ writeBack key rows t := by
  refine List.mem_map.mpr ⟨r, hr, ?_⟩
  cases hfind : rows.find? fun y => key y = key r with
  | none =>
      have := List.find?_eq_none.mp hfind x hx
      simp [hkey] at this
  | some y =>
      have hy := List.find?_some hfind
      simp only [decide_eq_true_eq] at hy
      have hmem := List.mem_of_find?_eq_some hfind
      exact List.inj_on_of_nodup_map hrows hmem hx (hy.trans hkey)

theorem mem_writeBack_of_ne {r : α} (hr : r ∈ t) (h : ∀ y ∈ rows, key y ≠ key r) :
    r ∈ writeBack key rows t := by
  refine List.mem_map.mpr ⟨r, hr, ?_⟩
  have : (rows.find? fun y => key y = key r) = none := by
    simpa [List.find?_eq_none] using h
  simp [this]

/-- A flush that changes every row by `f` or leaves it as it is. -/
theorem writeBack_eq_map (f : α → α) (hrows : ∀ r ∈ t, ∀ x ∈ rows, key x = key r → x = f r)
    (hcover : ∀ r ∈ t, (∃ x ∈ rows, key x = key r) ∨ f r = r) :
    writeBack key rows t = t.map f := by
  refine List.map_congr_left fun r hr => ?_
  cases hfind : rows.find? fun x => key x = key r with
  | none =>
      rcases hcover r hr with ⟨x, hx, hkey⟩ | hsame
      · have := List.find?_eq_none.mp hfind x hx
        simp [hkey] at this
      · simp [hsame]
  | some x =>
      have hkey := List.find?_some hfind
      simp only [decide_eq_true_eq] at hkey
      simpa [hfind] using hrows r hr x (List.mem_of_find?_eq_some hfind) hkey

/-- Flushing the changed rows of a selection changes the selected rows. -/
theorem writeBack_filter_map (p : α → Bool) (f : α → α) (hkey : ∀ r ∈ t, key (f r) = key r)
    (h : Unique key t) :
    writeBack key ((t.filter p).map f) t = t.map fun r => if p r then f r else r := by
  refine writeBack_eq_map _ ?_ ?_
  · intro r hr x hx hxr
    obtain ⟨y, hy, rfl⟩ := List.mem_map.mp hx
    obtain ⟨hyt, hpy⟩ := List.mem_filter.mp hy
    obtain rfl : y = r := h.eq hyt hr ((hkey y hyt).symm.trans hxr)
    rw [if_pos hpy]
  · intro r hr
    by_cases hp : p r = true
    · exact Or.inl ⟨f r, List.mem_map.mpr ⟨r, List.mem_filter.mpr ⟨hr, hp⟩, rfl⟩, hkey r hr⟩
    · exact Or.inr (if_neg hp)

/-- Flushing rows as they are stored changes nothing. -/
theorem writeBack_self (h : Unique key t) (hrows : ∀ x ∈ rows, x ∈ t) :
    writeBack key rows t = t := by
  refine (writeBack_eq_map id ?_ fun _ _ => Or.inr rfl).trans (List.map_id t)
  exact fun r hr x hx hkey => h.eq (hrows x hx) hr hkey

/-- Flushing one changed row. -/
theorem mem_writeBack_singleton {x r : α} (h : r ∈ writeBack key [x] t) :
    (r ∈ t ∧ key r ≠ key x) ∨ r = x := by
  rcases mem_writeBack h with ⟨hrt, hne⟩ | ⟨hrx, _⟩
  · exact Or.inl ⟨hrt, fun he => hne x (by simp) he.symm⟩
  · exact Or.inr (by simpa using hrx)

/-- A flush of one changed row, with the rows around it. -/
theorem Unique.writeBack_split (h : Unique key t) {x r : α} (hr : r ∈ t) (hkey : key x = key r) :
    ∃ before after, t = before ++ r :: after ∧ writeBack key [x] t = before ++ x :: after := by
  obtain ⟨before, after, rfl⟩ := List.append_of_mem hr
  refine ⟨before, after, rfl, ?_⟩
  have hnodup : (before.map key ++ key r :: after.map key).Nodup := by
    simpa [Unique] using h
  have hkeys := List.nodup_middle.mp hnodup
  have hfresh : ∀ s ∈ before ++ after, key s ≠ key x := by
    intro s hs hsame
    refine (List.nodup_cons.mp hkeys).1 ?_
    rw [← List.map_append, ← hkey, ← hsame]
    exact List.mem_map_of_mem hs
  have hsame : ∀ s ∈ before ++ after, (([x].find? fun y => key y = key s).getD s) = s := by
    intro s hs
    rw [List.find?_cons_of_neg (by simpa using (hfresh s hs).symm)]
    rfl
  unfold writeBack
  rw [List.map_append, List.map_cons, List.find?_cons_of_pos (by simpa using hkey)]
  congr 1
  · refine (List.map_congr_left fun s hs => ?_).trans (List.map_id _)
    exact hsame s (List.mem_append_left _ hs)
  · congr 1
    refine (List.map_congr_left fun s hs => ?_).trans (List.map_id _)
    exact hsame s (List.mem_append_right _ hs)

/-- A selection that looks at the key only commutes with a flush. -/
theorem filter_writeBack (p : α → Bool) (hp : ∀ x ∈ rows, ∀ r ∈ t, key x = key r → p x = p r) :
    (writeBack key rows t).filter p = writeBack key rows (t.filter p) := by
  induction t with
  | nil => rfl
  | cons r rest ih =>
      have hrest := ih fun x hx s hs => hp x hx s (List.mem_cons_of_mem r hs)
      have hhead : p ((rows.find? fun x => key x = key r).getD r) = p r := by
        cases hfind : rows.find? fun x => key x = key r with
        | none => simp
        | some x =>
            have hkey := List.find?_some hfind
            simp only [decide_eq_true_eq] at hkey
            exact hp x (List.mem_of_find?_eq_some hfind) r (by simp) hkey
      show ((rows.find? fun x => key x = key r).getD r :: writeBack key rows rest).filter p = _
      rw [List.filter_cons, List.filter_cons, hhead]
      by_cases hpr : p r = true
      · rw [if_pos hpr, if_pos hpr, hrest]
        rfl
      · rw [if_neg hpr, if_neg hpr, hrest]

theorem Unique.writeBack (h : Unique key t) : Unique key (writeBack key rows t) := by
  unfold Unique
  rw [map_key_writeBack]
  exact h

/-- Looking a row up by its key finds it. -/
theorem Unique.find? (h : Unique key t) {x : α} (hx : x ∈ t) :
    (t.find? fun r => key r = key x) = some x := by
  cases hfind : t.find? fun r => key r = key x with
  | none =>
      have := List.find?_eq_none.mp hfind x hx
      simp at this
  | some y =>
      have hy := List.find?_some hfind
      simp only [decide_eq_true_eq] at hy
      rw [h.eq (List.mem_of_find?_eq_some hfind) hx hy]

/-- At most one row has a key. -/
theorem Unique.filter_key (h : Unique key t) (k : κ) :
    (t.filter fun r => key r = k).length ≤ 1 := by
  have hcount := List.nodup_iff_count_le_one.mp h k
  rw [List.count, List.countP_map] at hcount
  rw [← List.countP_eq_length_filter]
  refine Nat.le_trans (Nat.le_of_eq ?_) hcount
  exact List.countP_congr fun r _ => by simp

/-! ### Looking rows up -/

/-- The first row under a key. -/
def lookup (key : α → κ) (t : List α) (k : κ) : Option α :=
  t.find? fun r => key r = k

theorem lookup_some {k : κ} {x : α} (h : lookup key t k = some x) : x ∈ t ∧ key x = k := by
  have hkey := List.find?_some h
  exact ⟨List.mem_of_find?_eq_some h, by simpa using hkey⟩

theorem lookup_none {k : κ} : lookup key t k = none ↔ k ∉ t.map key := by
  simp [lookup, List.find?_eq_none]

theorem Unique.lookup (h : Unique key t) {x : α} (hx : x ∈ t) : lookup key t (key x) = some x :=
  h.find? hx

theorem Unique.mem_iff (h : Unique key t) {x : α} :
    x ∈ t ↔ Tables.lookup key t (key x) = some x :=
  ⟨h.lookup, fun hx => (lookup_some hx).1⟩

theorem lookup_insert {x : α} (hx : key x ∉ t.map key) (k : κ) :
    lookup key (t ++ [x]) k = if k = key x then some x else lookup key t k := by
  unfold lookup
  rw [List.find?_append]
  by_cases hk : k = key x
  · have hnone : (t.find? fun r => key r = k) = none := hk ▸ lookup_none.mpr hx
    rw [hnone, if_pos hk]
    simp [hk]
  · have hlast : ([x].find? fun r => key r = k) = none := by simp [Ne.symm hk]
    rw [hlast, if_neg hk, Option.or_none]

theorem lookup_writeBack {x : α} (hx : key x ∈ t.map key) (k : κ) :
    lookup key (writeBack key [x] t) k = if k = key x then some x else lookup key t k := by
  induction t with
  | nil => simp at hx
  | cons r rest ih =>
      have hhead : writeBack key [x] (r :: rest) =
          (if key x = key r then x else r) :: writeBack key [x] rest := by
        by_cases hr : key x = key r <;> simp [writeBack, hr]
      rw [hhead]
      unfold lookup at ih ⊢
      by_cases hr : key x = key r
      · rw [if_pos hr, List.find?_cons, List.find?_cons]
        by_cases hk : k = key x
        · simp [hk]
        · have hold : key r ≠ k := fun he => hk (he.symm.trans hr.symm)
          simp only [Ne.symm hk, hold, decide_false, if_neg hk]
          by_cases hmem : key x ∈ rest.map key
          · rw [ih hmem, if_neg hk]
          · have hsame : writeBack key [x] rest = rest := by
              refine (writeBack_eq_map id ?_ fun _ _ => Or.inr rfl).trans (List.map_id _)
              intro r' hr' y hy hkey
              obtain rfl := List.mem_singleton.mp hy
              exact absurd (hkey ▸ List.mem_map_of_mem hr') hmem
            rw [hsame]
      · rw [if_neg hr, List.find?_cons, List.find?_cons]
        have hrest : key x ∈ rest.map key := by
          rcases List.mem_cons.mp hx with hhere | hthere
          · exact absurd hhere hr
          · exact hthere
        by_cases hk : key r = k
        · have hne : k ≠ key x := fun he => hr (he.symm.trans hk.symm)
          simp [hk, hne]
        · simp only [hk, decide_false]
          exact ih hrest

theorem lookup_writeBack_ne {x : α} {k : κ} (hk : k ≠ key x) :
    lookup key (writeBack key [x] t) k = lookup key t k := by
  by_cases hx : key x ∈ t.map key
  · rw [lookup_writeBack hx, if_neg hk]
  · rw [writeBack_eq_map id ?_ fun _ _ => Or.inr rfl, List.map_id]
    intro r hr y hy hkey
    rw [List.mem_singleton.mp hy] at hkey
    exact absurd (hkey ▸ List.mem_map_of_mem hr) hx

theorem lookup_delete (t : List α) (k₀ k : κ) :
    lookup key (t.filter fun r => key r ≠ k₀) k = if k = k₀ then none else lookup key t k := by
  by_cases hk : k = k₀
  · rw [if_pos hk, lookup_none, hk]
    simp
  · rw [if_neg hk]
    unfold lookup
    rw [List.find?_filter]
    congr 1
    funext r
    by_cases hr : key r = k
    · simp [hr, hk]
    · simp [hr]

/-- Write a row under its key: in the place of the row of that key, else behind the table. -/
def upsert (key : α → κ) (x : α) (t : List α) : List α :=
  if key x ∈ t.map key then writeBack key [x] t else t ++ [x]

theorem lookup_upsert (x : α) (k : κ) :
    lookup key (upsert key x t) k = if k = key x then some x else lookup key t k := by
  unfold upsert
  by_cases hx : key x ∈ t.map key
  · rw [if_pos hx]
    exact lookup_writeBack hx k
  · rw [if_neg hx]
    exact lookup_insert hx k

/-- A row that was just inserted is rewritten where it stands. -/
theorem writeBack_inserted {x y : α} (hkey : key y = key x) (hx : key x ∉ t.map key) :
    writeBack key [y] (t ++ [x]) = upsert key y t := by
  have hkept : writeBack key [y] t = t := by
    refine (writeBack_eq_map id ?_ fun _ _ => Or.inr rfl).trans (List.map_id t)
    intro r hr z hz hsame
    rw [List.mem_singleton.mp hz, hkey] at hsame
    exact absurd (hsame ▸ List.mem_map_of_mem hr) hx
  have hlast : writeBack key [y] [x] = [y] := by simp [writeBack, hkey]
  unfold Tables.upsert
  rw [hkey, if_neg hx]
  calc writeBack key [y] (t ++ [x]) = writeBack key [y] t ++ writeBack key [y] [x] :=
        List.map_append
    _ = t ++ [y] := by rw [hkept, hlast]

theorem Unique.upsert (h : Unique key t) (x : α) : Unique key (Tables.upsert key x t) := by
  unfold Tables.upsert
  split_ifs with hx
  · exact h.writeBack
  · exact h.insert fun r hr hkey => hx (hkey ▸ List.mem_map_of_mem hr)

end

/-! ### Writing rows one after the other -/

section

variable {σ ι β κ : Type*}

/-- **A loop that writes one key at a time.**  Each item writes its own key, to a value that is
known as long as its key and the keys of no item read as in the beginning; then the loop
writes these values and nothing else. -/
theorem foldl_pointwise (look : σ → κ → β) (key : ι → κ) (f : σ → ι → σ) (value : ι → β)
    (start : σ) (items : List ι) (hdistinct : (items.map key).Nodup)
    (hwrite : ∀ s, ∀ i ∈ items, look s (key i) = look start (key i) →
      (∀ k, k ∉ items.map key → look s k = look start k) →
        look (f s i) (key i) = value i ∧ ∀ k, k ≠ key i → look (f s i) k = look s k) :
    (∀ i ∈ items, look (items.foldl f start) (key i) = value i) ∧
      ∀ k, k ∉ items.map key → look (items.foldl f start) k = look start k := by
  -- the loop from any state that reads as in the beginning where the rest will write
  have hloop : ∀ (rest : List ι) (s : σ), (∀ i ∈ rest, i ∈ items) → (rest.map key).Nodup →
      (∀ i ∈ rest, look s (key i) = look start (key i)) →
      (∀ k, k ∉ items.map key → look s k = look start k) →
        (∀ i ∈ rest, look (rest.foldl f s) (key i) = value i) ∧
          ∀ k, k ∉ rest.map key → look (rest.foldl f s) k = look s k := by
    intro rest
    induction rest with
    | nil => exact fun s _ _ _ _ => ⟨by simp, fun _ _ => rfl⟩
    | cons i rest ih =>
        intro s hitems hnodup hfresh hothers
        rw [List.map_cons, List.nodup_cons] at hnodup
        obtain ⟨hvalue, hkeep⟩ := hwrite s i (hitems i (by simp)) (hfresh i (by simp)) hothers
        have hne : ∀ j ∈ rest, key j ≠ key i := fun j hj hkey =>
          hnodup.1 (hkey ▸ List.mem_map_of_mem hj)
        have hkeyed : key i ∈ items.map key := List.mem_map_of_mem (hitems i (by simp))
        obtain ⟨hvalues, hrest⟩ := ih (f s i) (fun j hj => hitems j (List.mem_cons_of_mem i hj))
          hnodup.2
          (fun j hj => (hkeep _ (hne j hj)).trans (hfresh j (List.mem_cons_of_mem i hj)))
          (fun k hk => (hkeep k fun hsame => hk (hsame ▸ hkeyed)).trans (hothers k hk))
        refine ⟨fun j hj => ?_, fun k hk => ?_⟩
        · rw [List.foldl_cons]
          rcases List.mem_cons.mp hj with rfl | hthere
          · rw [hrest _ hnodup.1, hvalue]
          · exact hvalues j hthere
        · rw [List.map_cons, List.mem_cons, not_or] at hk
          rw [List.foldl_cons, hrest k hk.2, hkeep k hk.1]
  exact hloop items start (fun _ hi => hi) hdistinct (fun _ _ => rfl) fun _ _ => rfl

/-- **A loop that establishes one thing for each item.**  The step of an item establishes it
and the steps of the other items keep it, as long as the state meets the invariant. -/
theorem foldl_establishes {I : σ → Prop} {P : ι → σ → Prop} (key : ι → κ) (f : σ → ι → σ)
    (items : List ι) (hdistinct : (items.map key).Nodup)
    (hstep : ∀ s, I s → ∀ i ∈ items, I (f s i) ∧ P i (f s i) ∧
      ∀ j ∈ items, key j ≠ key i → P j s → P j (f s i))
    {start : σ} (hstart : I start) :
    I (items.foldl f start) ∧ ∀ i ∈ items, P i (items.foldl f start) := by
  induction items using List.reverseRec with
  | nil => exact ⟨hstart, by simp⟩
  | append_singleton init i ih =>
      rw [List.map_append, List.nodup_append] at hdistinct
      obtain ⟨hinit, -, hnew⟩ := hdistinct
      obtain ⟨hbefore, hdone⟩ := ih hinit fun s hs j hj =>
        let ⟨hI, hP, hkeep⟩ := hstep s hs j (List.mem_append_left _ hj)
        ⟨hI, hP, fun l hl => hkeep l (List.mem_append_left _ hl)⟩
      obtain ⟨hI, hP, hkeep⟩ := hstep _ hbefore i (by simp)
      rw [List.foldl_append, List.foldl_cons, List.foldl_nil]
      refine ⟨hI, fun j hj => ?_⟩
      rcases List.mem_append.mp hj with hthere | hlast
      · exact hkeep j hj (hnew _ (List.mem_map_of_mem hthere) _ (by simp)) (hdone j hthere)
      · rw [List.mem_singleton.mp hlast]
        exact hP

end

/-! ### Guarded updates

`UPDATE … SET … WHERE …` rewrites the rows that meet its condition when it runs, whatever
an earlier read saw, and reports how many they were.
-/

/-- The table after the update. -/
def updateWhere (p : α → Bool) (f : α → α) (t : List α) : List α :=
  t.map fun r => if p r then f r else r

/-- The number of rows the update meets. -/
def rowcount (p : α → Bool) (t : List α) : Nat :=
  t.countP p

section

variable [DecidableEq κ] {p : α → Bool} {f : α → α}

/-- Where the condition names a unique key, one row is rewritten or none. -/
theorem Unique.updateWhere (h : Unique key t) (hf : ∀ r, key (f r) = key r) {k : κ}
    (hp : ∀ r, p r → key r = k) :
    (rowcount p t = 1 ∧
        ∃ r ∈ t, key r = k ∧ p r ∧ updateWhere p f t = Tables.writeBack key [f r] t) ∨
      (rowcount p t = 0 ∧ updateWhere p f t = t) := by
  by_cases hany : ∃ r ∈ t, p r
  · obtain ⟨r, hr, hpr⟩ := hany
    have honly : ∀ r' ∈ t, (p r' ↔ key r' = k) := by
      intro r' hr'
      refine ⟨hp r', fun hkey => ?_⟩
      rw [h.eq hr' hr (hkey.trans (hp r hpr).symm)]
      exact hpr
    refine Or.inl ⟨?_, r, hr, hp r hpr, hpr, ?_⟩
    · have hcount : (t.map key).count k = 1 :=
        List.count_eq_one_of_mem h (hp r hpr ▸ List.mem_map_of_mem hr)
      rw [List.count, List.countP_map] at hcount
      rw [← hcount]
      exact List.countP_congr fun r' hr' => by simp [honly r' hr']
    · refine (writeBack_eq_map _ ?_ ?_).symm
      · intro r' hr' x hx hkey
        obtain rfl := List.mem_singleton.mp hx
        obtain rfl : r = r' := h.eq hr hr' ((hf r).symm.trans hkey)
        exact (if_pos hpr).symm
      · intro r' hr'
        by_cases hpr' : p r'
        · refine Or.inl ⟨f r, by simp, (hf r).trans ?_⟩
          exact (hp r hpr).trans (hp r' hpr').symm
        · exact Or.inr (if_neg hpr')
  · have hnone : ∀ r ∈ t, ¬ p r := fun r hr hpr => hany ⟨r, hr, hpr⟩
    refine Or.inr ⟨List.countP_eq_zero.mpr hnone, ?_⟩
    refine (List.map_congr_left fun r hr => ?_).trans (List.map_id t)
    exact if_neg (hnone r hr)

end

/-! ### Tables that only grow -/

/-- Rows with the property are appended, and nothing else happens. -/
def Grows (P : α → Prop) (t t' : List α) : Prop :=
  ∃ new, t' = t ++ new ∧ ∀ x ∈ new, P x

section

variable {P Q : α → Prop} {t' t'' : List α}

theorem Grows.refl : Grows P t t := ⟨[], by simp, by simp⟩

theorem Grows.of_eq (h : t' = t) : Grows P t t' := ⟨[], by simp [h], by simp⟩

theorem Grows.one {x : α} (h : P x) : Grows P t (t ++ [x]) :=
  ⟨[x], rfl, fun _ hy => List.mem_singleton.mp hy ▸ h⟩

theorem Grows.trans (h₁ : Grows P t t') (h₂ : Grows P t' t'') : Grows P t t'' := by
  obtain ⟨new₁, rfl, hnew₁⟩ := h₁
  obtain ⟨new₂, rfl, hnew₂⟩ := h₂
  refine ⟨new₁ ++ new₂, List.append_assoc _ _ _, fun x hx => ?_⟩
  rcases List.mem_append.mp hx with hx | hx
  · exact hnew₁ x hx
  · exact hnew₂ x hx

theorem Grows.mono (h : Grows P t t') (himp : ∀ x, P x → Q x) : Grows Q t t' := by
  obtain ⟨new, ht, hnew⟩ := h
  exact ⟨new, ht, fun x hx => himp x (hnew x hx)⟩

theorem Grows.mem (h : Grows P t t') {x : α} (hx : x ∈ t') : x ∈ t ∨ P x := by
  obtain ⟨new, rfl, hnew⟩ := h
  exact (List.mem_append.mp hx).imp id (hnew x)

theorem Grows.subset (h : Grows P t t') {x : α} (hx : x ∈ t) : x ∈ t' := by
  obtain ⟨new, rfl, -⟩ := h
  exact List.mem_append_left new hx

/-- A selection that no inserted row meets stays. -/
theorem Grows.filter (h : Grows P t t') {p : α → Bool} (hp : ∀ x, P x → p x = false) :
    t'.filter p = t.filter p := by
  obtain ⟨new, rfl, hnew⟩ := h
  have hnone : new.filter p = [] := by
    refine List.filter_eq_nil_iff.mpr fun x hx => ?_
    rw [hp x (hnew x hx)]
    simp
  rw [List.filter_append, hnone, List.append_nil]

/-- Neither does a row that was found, or that no inserted row could be. -/
theorem Grows.find? (h : Grows P t t') {p : α → Bool}
    (hp : (∃ x ∈ t, p x = true) ∨ ∀ x, P x → p x = false) : t'.find? p = t.find? p := by
  obtain ⟨new, rfl, hnew⟩ := h
  rw [List.find?_append]
  cases hfind : t.find? p with
  | some x => rfl
  | none =>
      rcases hp with ⟨x, hx, hpx⟩ | hp
      · exact absurd hpx (List.find?_eq_none.mp hfind x hx)
      · refine List.find?_eq_none.mpr fun x hx => ?_
        rw [hp x (hnew x hx)]
        simp

/-- The inserted rows are those behind the old ones. -/
theorem Grows.drop (h : Grows P t t') (hlater : ∀ x ∈ t'.drop t.length, Q x) : Grows Q t t' := by
  obtain ⟨new, rfl, -⟩ := h
  exact ⟨new, rfl, by simpa using hlater⟩

end

/-! ### Columns that are kept -/

/-- Rows of one key agree on a column. -/
def Agree {β : Type*} (key : α → κ) (column : α → β) (t₀ t : List α) : Prop :=
  ∀ r ∈ t, ∀ r₀ ∈ t₀, key r₀ = key r → column r = column r₀

section

variable {β : Type*} {column : α → β} {t₀ : List α} {x : α}

theorem Agree.refl (h : Unique key t) : Agree key column t t :=
  fun _ hr _ hr₀ hkey => congrArg column (h.eq hr hr₀ hkey.symm)

theorem Agree.rewrite [DecidableEq κ] (h : Agree key column t₀ t) (hunique : Unique key t₀) {x₀ : α}
    (hx₀ : x₀ ∈ t₀) (hkey : key x = key x₀) (hcolumn : column x = column x₀) :
    Agree key column t₀ (writeBack key [x] t) := by
  intro r hr r₀ hr₀ hsame
  rcases mem_writeBack_singleton hr with ⟨hold, -⟩ | rfl
  · exact h r hold r₀ hr₀ hsame
  · obtain rfl : r₀ = x₀ := hunique.eq hr₀ hx₀ (hsame.trans hkey)
    exact hcolumn

theorem Agree.insert (h : Agree key column t₀ t) (hx : key x ∉ t₀.map key) :
    Agree key column t₀ (t ++ [x]) := by
  intro r hr r₀ hr₀ hsame
  rcases List.mem_append.mp hr with hold | hnew
  · exact h r hold r₀ hr₀ hsame
  · obtain rfl := List.mem_singleton.mp hnew
    exact absurd (hsame ▸ List.mem_map_of_mem hr₀) hx

theorem Agree.filter (h : Agree key column t₀ t) (p : α → Bool) :
    Agree key column t₀ (t.filter p) :=
  fun r hr => h r (List.mem_filter.mp hr).1

end

/-! ### Counters

A keyed table may count the entries of a log under each of its keys.
-/

section

variable {β : Type*} [DecidableEq κ] {logKey : β → κ} {count : α → Int} {log : List β}

/-- The number of entries of a log under a key. -/
def tally (logKey : β → κ) (log : List β) (k : κ) : Nat :=
  log.countP fun x => logKey x = k

/-- Every row counts the entries of the log under its key. -/
def Counts (key : α → κ) (count : α → Int) (logKey : β → κ) (t : List α) (log : List β) : Prop :=
  ∀ row ∈ t, count row = tally logKey log (key row)

theorem tally_append (log : List β) (x : β) (k : κ) :
    tally logKey (log ++ [x]) k = tally logKey log k + if logKey x = k then 1 else 0 := by
  simp [tally, List.countP_append, List.countP_singleton]

theorem tally_pos {k : κ} : 0 < tally logKey log k ↔ ∃ x ∈ log, logKey x = k := by
  simp [tally, List.countP_pos_iff]

/-- A row inserted under a new key, for a log that stays. -/
theorem Counts.append (h : Counts key count logKey t log) {row : α}
    (hcount : count row = tally logKey log (key row)) : Counts key count logKey (t ++ [row]) log := by
  intro r hr
  rcases List.mem_append.mp hr with hold | hnew
  · exact h r hold
  · obtain rfl := List.mem_singleton.mp hnew
    exact hcount

/-- An entry under a key no row has. -/
theorem Counts.log_append (h : Counts key count logKey t log) {x : β} (hx : ∀ r ∈ t, key r ≠ logKey x) :
    Counts key count logKey t (log ++ [x]) := by
  intro r hr
  rw [tally_append, if_neg fun hkey => hx r hr hkey.symm]
  exact h r hr

/-- An entry is written and its counter raised. -/
theorem Counts.bump (h : Counts key count logKey t log) {row row' : α} (hrow : row ∈ t)
    (hkey : key row' = key row) (hcount : count row' = count row + 1) {x : β}
    (hx : logKey x = key row) : Counts key count logKey (writeBack key [row'] t) (log ++ [x]) := by
  intro r hr
  rw [tally_append]
  rcases mem_writeBack_singleton hr with ⟨hold, hne⟩ | rfl
  · rw [if_neg (by rw [hx, ← hkey]; exact hne.symm)]
    exact h r hold
  · rw [hcount, h row hrow, hkey, if_pos hx]
    push_cast
    rfl

/-- A row is rewritten, but for its key and its counter. -/
theorem Counts.rewrite (h : Counts key count logKey t log) {row row' : α} (hrow : row ∈ t)
    (hkey : key row' = key row) (hcount : count row' = count row) :
    Counts key count logKey (writeBack key [row'] t) log := by
  intro r hr
  rcases mem_writeBack_singleton hr with ⟨hold, _⟩ | rfl
  · exact h r hold
  · rw [hcount, hkey]
    exact h row hrow

/-- The entries carry the numbers they were counted from and to. -/
def Numbered (before after : β → Option Int) (log : List β) : Prop :=
  log.map (fun x => (before x, after x)) =
    (List.range log.length).map fun (i : Nat) => (some (i : Int), some ((i : Int) + 1))

theorem Numbered.append {before after : β → Option Int} (h : Numbered before after log) {x : β}
    (hbefore : before x = some (log.length : Int))
    (hafter : after x = some ((log.length : Int) + 1)) : Numbered before after (log ++ [x]) := by
  unfold Numbered at h ⊢
  rw [List.map_append, h, List.length_append, List.length_singleton, List.range_succ,
    List.map_append]
  simp [hbefore, hafter]

end

end Tables
