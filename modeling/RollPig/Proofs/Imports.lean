/-
An old file can be imported, and imported again, if no two of its entries meet in one row.

Every lookup of the import sees the database it found, so entries that meet in a row are all
added.  Where the table has a unique key the commit fails; the events have none, and there
the second import fails, whose lookups find two rows.
-/
import RollPig.Tools.ImportLegacyJson
import RollPig.Proofs.Growth
import RollPig.Proofs.Protections
import RollPig.Proofs.Footprints

namespace RollPig

open Tables

variable {e : Env} {data : LegacyData} {db db' : Db}

/-! ### Records that name a pig -/

section

variable {α κ ρ : Type} [DecidableEq κ] {key : α → κ} {pig : ρ → String} {row : ρ → α}
  {table : Staged α}

/-- Into an empty table go the records that name a pig. -/
theorem foldlM_importRecord_empty (h : table.stored = []) (records : List ρ) :
    records.foldlM (fun table r => importRecord key (pig r) (row r) table) table =
      some { table with added := table.added ++ (records.filter (pig · ≠ "")).map row } := by
  induction records generalizing table with
  | nil => simp
  | cons r records ih =>
      rw [List.foldlM_cons]
      unfold importRecord at ih ⊢
      rw [Staged.one?_empty h]
      by_cases hpig : pig r = ""
      · simpa [hpig] using ih h
      · have hadded := ih (show (table.add (row r)).stored = [] from h)
        simpa [hpig, Staged.add] using hadded

/-- Records whose rows are stored change nothing. -/
theorem foldlM_importRecord_known (hunique : Unique key table.stored) (records : List ρ)
    (hknown : ∀ r ∈ records, pig r ≠ "" → key (row r) ∈ table.stored.map key) :
    records.foldlM (fun table r => importRecord key (pig r) (row r) table) table = some table := by
  induction records with
  | nil => rfl
  | cons r records ih =>
      have hstep : importRecord key (pig r) (row r) table = some table := by
        unfold importRecord
        by_cases hstored : key (row r) ∈ table.stored.map key
        · obtain ⟨x, hx⟩ := Staged.one?_known hunique hstored
          simp [hx]
        · have hpig : pig r = "" := by
            by_contra hne
            exact hstored (hknown r List.mem_cons_self hne)
          simp [Staged.one?_unknown hstored, hpig]
      rw [List.foldlM_cons, hstep]
      exact ih fun x hx => hknown x (List.mem_cons_of_mem _ hx)

end

/-! ### Collected pigs -/

/-- The rows a collected pig is new in. -/
def newCollection (e : Env) (collected : String × String) : Collection :=
  { userId := collected.1, pigId := collected.2, firstSeenAt := e.dbNow }

def newProgress (e : Env) (collected : String × String) : UserPigProgress :=
  { userId := collected.1, pigId := collected.2, copies := 1, firstObtainedAt := e.dbNow }

def newDrawState (collected : String × String) : UserDrawState :=
  { userId := collected.1, duplicateStreak := 0 }

theorem foldlM_importCollected_empty {tables : CollectionTables}
    (hcollections : tables.collections.stored = [])
    (hprogress : tables.userPigProgress.stored = []) (hdraws : tables.userDrawState.stored = [])
    (collected : List (String × String)) :
    collected.foldlM (importCollected e) tables =
      some { collections := { tables.collections with
               added := tables.collections.added ++ collected.map (newCollection e) }
             userPigProgress := { tables.userPigProgress with
               added := tables.userPigProgress.added ++ collected.map (newProgress e) }
             userDrawState := { tables.userDrawState with
               added := tables.userDrawState.added ++ collected.map newDrawState } } := by
  induction collected generalizing tables with
  | nil => simp
  | cons c collected ih =>
      have hstep : importCollected e tables c =
          some { collections := tables.collections.add (newCollection e c)
                 userPigProgress := tables.userPigProgress.add (newProgress e c)
                 userDrawState := tables.userDrawState.add (newDrawState c) } := by
        obtain ⟨userId, pigId⟩ := c
        simp only [importCollected, ensurePigProgress, ensureDrawState,
          Staged.one?_empty hcollections, Staged.addMissing_empty hprogress,
          Staged.addMissing_empty hdraws]
        rfl
      rw [List.foldlM_cons, hstep]
      have hrest := @ih { collections := tables.collections.add (newCollection e c)
                          userPigProgress := tables.userPigProgress.add (newProgress e c)
                          userDrawState := tables.userDrawState.add (newDrawState c) }
        hcollections hprogress hdraws
      refine hrest.trans ?_
      simp [Staged.add]

theorem foldlM_importCollected_known {tables : CollectionTables}
    (hcollections : Unique collectionKey tables.collections.stored)
    (hprogress : Unique progressKey tables.userPigProgress.stored)
    (hdraws : Unique (·.userId) tables.userDrawState.stored)
    {collected : List (String × String)}
    (hknown : ∀ c ∈ collected, c ∈ tables.collections.stored.map collectionKey ∧
      c ∈ tables.userPigProgress.stored.map progressKey ∧
      c.1 ∈ tables.userDrawState.stored.map (·.userId)) :
    collected.foldlM (importCollected e) tables = some tables := by
  induction collected with
  | nil => rfl
  | cons c collected ih =>
      obtain ⟨hcollected, hcounted, hdrawn⟩ := hknown c List.mem_cons_self
      have hstep : importCollected e tables c = some tables := by
        obtain ⟨userId, pigId⟩ := c
        obtain ⟨row, hrow⟩ := Staged.one?_known hcollections hcollected
        obtain ⟨counted, hcount⟩ := Staged.one?_known hprogress hcounted
        obtain ⟨drawn, hdraw⟩ := Staged.one?_known hdraws hdrawn
        unfold collectionKey at hrow
        unfold progressKey at hcount
        simp [importCollected, ensurePigProgress, ensureDrawState, Staged.addMissing, hrow,
          hcount, hdraw]
      rw [List.foldlM_cons, hstep]
      exact ih fun x hx => hknown x (List.mem_cons_of_mem _ hx)

/-! ### Usage -/

/-- The usage rows say what the file says. -/
structure LegacyData.UsageTold (data : LegacyData) (rows : List UserUsage) : Prop where
  roasts : ∀ m ∈ data.usage.members, ∃ row ∈ rows,
    row.userId = m.1 ∧ row.lastRoastTs = some (truncate (m.2.getD 0))
  forces : ∀ m ∈ data.forceUsage.members, ∃ row ∈ rows,
    row.userId = m.1 ∧ row.lastForceDate = some (parseDate m.2)

variable {table : UsageTable} {assign : UserUsage → UserUsage}

/-- An assignment to the row of a user, when nothing is stored. -/
theorem assignUsage_empty (userId : String) (hstored : table.stored = [])
    (hassign : ∀ usage, (assign usage).userId = usage.userId)
    (hunique : Unique (·.userId) table.cache) :
    ∃ cache, assignUsage userId assign table = some { table with cache } ∧
      Unique (·.userId) cache ∧
      ∀ k, lookup (·.userId) cache k =
        if k = userId then some (assign ((lookup (·.userId) table.cache userId).getD { userId }))
        else lookup (·.userId) table.cache k := by
  unfold assignUsage getOrCreateUserUsage
  cases hcached : lookup (·.userId) table.cache userId with
  | some cached =>
      obtain ⟨hmem, hid⟩ := lookup_some hcached
      refine ⟨_, rfl, hunique.writeBack, fun k => ?_⟩
      have hkey : (assign cached).userId = userId := (hassign cached).trans hid
      rw [lookup_writeBack]
      · rw [hkey]
        rfl
      · show (assign cached).userId ∈ table.cache.map (·.userId)
        rw [hassign]
        exact List.mem_map_of_mem hmem
  | none =>
      have hfresh : userId ∉ table.cache.map (·.userId) := lookup_none.mp hcached
      rw [hstored]
      have hkey : (assign { userId := userId }).userId = userId := hassign _
      have hfound : (assign { userId := userId }).userId ∈
          (table.cache ++ [({ userId := userId } : UserUsage)]).map (·.userId) := by
        rw [hkey, List.map_append]
        exact List.mem_append_right _ (List.mem_singleton_self userId)
      refine ⟨writeBack (·.userId) [assign { userId := userId }]
        (table.cache ++ [{ userId := userId }]), rfl, ?_, fun k => ?_⟩
      · refine Unique.writeBack (hunique.insert fun row hrow hsame => hfresh ?_)
        have hid : row.userId = userId := hsame
        exact hid ▸ List.mem_map_of_mem hrow
      · rw [lookup_writeBack hfound, hkey]
        by_cases hk : k = userId
        · rw [if_pos hk, if_pos hk]
          rfl
        · rw [if_neg hk, if_neg hk, lookup_insert hfresh, if_neg hk]

section

variable {β : Type}

/-- A loop of assignments, when nothing is stored: every user it names ends with what it
assigned, and what no assignment touches is kept. -/
theorem foldlM_assignUsage_empty (set : β → UserUsage → UserUsage) (table : UsageTable)
    (Q : String → UserUsage → Prop) (hset : ∀ v usage, (set v usage).userId = usage.userId)
    (hkeep : ∀ k v usage, Q k usage → Q k (set v usage)) (members : List (String × β)) (hnodup : (members.map Prod.fst).Nodup)
    (hstored : table.stored = []) (hunique : Unique (·.userId) table.cache) :
    ∃ cache, members.foldlM (fun table m => assignUsage m.1 (set m.2) table) table =
        some { table with cache } ∧
      Unique (·.userId) cache ∧
      (∀ k, k ∉ members.map Prod.fst →
        lookup (·.userId) cache k = lookup (·.userId) table.cache k) ∧
      (∀ m ∈ members, ∃ usage, lookup (·.userId) cache m.1 = some (set m.2 usage)) ∧
      ∀ k, (∃ usage, lookup (·.userId) table.cache k = some usage ∧ Q k usage) →
        ∃ usage, lookup (·.userId) cache k = some usage ∧ Q k usage := by
  induction members generalizing table with
  | nil => exact ⟨table.cache, rfl, hunique, by simp, by simp, fun _ h => h⟩
  | cons m members ih =>
      obtain ⟨hfresh, hrest⟩ := List.nodup_cons.mp hnodup
      obtain ⟨cache₁, hstep, hunique₁, hlookup₁⟩ :=
        assignUsage_empty m.1 hstored (hset m.2) hunique
      obtain ⟨cache₂, hloop, hunique₂, hother, hnamed, hkept⟩ :=
        ih { table with cache := cache₁ } hrest hstored hunique₁
      rw [List.foldlM_cons, hstep]
      refine ⟨cache₂, hloop, hunique₂, ?_, ?_, ?_⟩
      · intro k hk
        rw [List.map_cons, List.mem_cons, not_or] at hk
        rw [hother k hk.2, hlookup₁, if_neg hk.1]
      · intro m' hm'
        rcases List.mem_cons.mp hm' with rfl | hlater
        · exact ⟨_, by rw [hother _ hfresh, hlookup₁, if_pos rfl]⟩
        · exact hnamed m' hlater
      · rintro k ⟨usage, hlookup, hQ⟩
        refine hkept k ?_
        rw [hlookup₁]
        by_cases hk : k = m.1
        · rw [if_pos hk, ← hk, hlookup]
          exact ⟨_, rfl, hkeep k m.2 usage hQ⟩
        · rw [if_neg hk]
          exact ⟨usage, hlookup, hQ⟩

/-- Assignments of what is stored leave stored rows in the cache. -/
theorem foldlM_assignUsage_known (set : β → UserUsage → UserUsage) (table : UsageTable)
    (hunique : Unique (·.userId) table.stored) {members : List (String × β)}
    (htold : ∀ m ∈ members, ∃ row ∈ table.stored, row.userId = m.1 ∧ set m.2 row = row)
    (hcache : ∀ row ∈ table.cache, row ∈ table.stored) :
    ∃ cache, members.foldlM (fun table m => assignUsage m.1 (set m.2) table) table =
        some { table with cache } ∧ ∀ row ∈ cache, row ∈ table.stored := by
  induction members generalizing table with
  | nil => exact ⟨table.cache, rfl, hcache⟩
  | cons m members ih =>
      obtain ⟨row, hrow, hid, hsame⟩ := htold m List.mem_cons_self
      have hstep : ∃ cache, assignUsage m.1 (set m.2) table = some { table with cache } ∧
          ∀ row ∈ cache, row ∈ table.stored := by
        have hback : ∀ cache : List UserUsage, (∀ row ∈ cache, row ∈ table.stored) →
            ∀ r ∈ writeBack (·.userId) [row] cache, r ∈ table.stored := by
          intro cache hsub r hr
          rcases mem_writeBack_singleton hr with ⟨hold, -⟩ | rfl
          · exact hsub r hold
          · exact hrow
        unfold assignUsage getOrCreateUserUsage
        cases hcached : lookup (·.userId) table.cache m.1 with
        | some cached =>
            obtain ⟨hmem, hid'⟩ := lookup_some hcached
            obtain rfl : cached = row :=
              hunique.eq (hcache cached hmem) hrow (hid'.trans hid.symm)
            refine ⟨_, rfl, ?_⟩
            rw [hsame]
            exact hback _ hcache
        | none =>
            have hfound : oneOrNone (table.stored.filter (·.userId = m.1)) = some (some row) :=
              hid ▸ Staged.one?_mem (t := { stored := table.stored }) hunique hrow
            rw [hfound]
            refine ⟨_, rfl, ?_⟩
            dsimp only [Option.getD_some]
            rw [hsame]
            refine hback _ fun r hr => ?_
            rcases List.mem_append.mp hr with hold | hnew
            · exact hcache r hold
            · exact List.mem_singleton.mp hnew ▸ hrow
      obtain ⟨cache₁, hstep, hcache₁⟩ := hstep
      obtain ⟨cache₂, hloop, hcache₂⟩ := ih { table with cache := cache₁ } hunique
        (fun m' hm' => htold m' (List.mem_cons_of_mem _ hm')) hcache₁
      rw [List.foldlM_cons, hstep]
      exact ⟨cache₂, hloop, hcache₂⟩

end

/-- The usage of a first import. -/
theorem importUsage_empty (data : LegacyData) :
    ∃ usage, (importUsage data { stored := [] }).bind (importForceUsage data) = some usage ∧
      Unique (·.userId) usage.rows ∧ data.UsageTold usage.rows := by
  obtain ⟨cache₁, hroasts, hunique₁, -, htold₁, -⟩ := foldlM_assignUsage_empty
    (fun (v : Option Rat) usage => { usage with lastRoastTs := some (truncate (v.getD 0)) })
    { stored := [] } (fun _ _ => True)
    (fun _ _ => rfl) (fun _ _ _ h => h) data.usage.members data.usage.nodup rfl List.nodup_nil
  obtain ⟨cache₂, hforces, hunique₂, -, htold₂, hkept⟩ := foldlM_assignUsage_empty
    (fun v usage => { usage with lastForceDate := some (parseDate v) })
    { stored := [], cache := cache₁ }
    (fun k usage => ∀ m ∈ data.usage.members, m.1 = k →
      usage.lastRoastTs = some (truncate (m.2.getD 0)))
    (fun _ _ => rfl) (fun _ _ _ h => h) data.forceUsage.members data.forceUsage.nodup rfl hunique₁
  have hrows : ({ stored := [], cache := cache₂ } : UsageTable).rows = cache₂ := by
    simp [UsageTable.rows, writeBack]
  refine ⟨{ stored := [], cache := cache₂ }, ?_, hrows.symm ▸ hunique₂, ?_, ?_⟩
  · unfold importUsage importForceUsage
    rw [hroasts]
    exact hforces
  · rw [hrows]
    intro m hm
    obtain ⟨usage, hlookup, htold⟩ := hkept m.1 (by
      obtain ⟨usage, hlookup⟩ := htold₁ m hm
      refine ⟨_, hlookup, fun m' hm' hkey => ?_⟩
      obtain rfl : m' = m := List.inj_on_of_nodup_map data.usage.nodup hm' hm hkey
      rfl)
    obtain ⟨hmem, hid⟩ := lookup_some hlookup
    exact ⟨usage, hmem, hid, htold m hm rfl⟩
  · rw [hrows]
    intro m hm
    obtain ⟨usage, hlookup⟩ := htold₂ m hm
    obtain ⟨hmem, hid⟩ := lookup_some hlookup
    exact ⟨_, hmem, hid, rfl⟩

/-- The usage of an import whose usage is stored. -/
theorem importUsage_known {stored : List UserUsage} (hunique : Unique (·.userId) stored)
    (htold : data.UsageTold stored) :
    ∃ usage, (importUsage data { stored }).bind (importForceUsage data) = some usage ∧
      usage.rows = stored := by
  have hassigned : ∀ {v : Option Int} {usage : UserUsage}, usage.lastRoastTs = v →
      { usage with lastRoastTs := v } = usage := by
    rintro v usage rfl
    rfl
  have hforced : ∀ {v : Option Date} {usage : UserUsage}, usage.lastForceDate = v →
      { usage with lastForceDate := v } = usage := by
    rintro v usage rfl
    rfl
  obtain ⟨cache₁, hroasts, hcache₁⟩ := foldlM_assignUsage_known
    (fun (v : Option Rat) usage => { usage with lastRoastTs := some (truncate (v.getD 0)) })
    { stored } hunique (fun m hm => by
      obtain ⟨row, hrow, hid, hlast⟩ := htold.roasts m hm
      exact ⟨row, hrow, hid, hassigned hlast⟩) (by simp)
  obtain ⟨cache₂, hforces, hcache₂⟩ := foldlM_assignUsage_known
    (fun v usage => { usage with lastForceDate := some (parseDate v) })
    { stored, cache := cache₁ } hunique (fun m hm => by
      obtain ⟨row, hrow, hid, hlast⟩ := htold.forces m hm
      exact ⟨row, hrow, hid, hforced hlast⟩) hcache₁
  refine ⟨{ stored, cache := cache₂ }, ?_, ?_⟩
  · unfold importUsage importForceUsage
    rw [hroasts]
    exact hforces
  · have hnew : (cache₂.filter fun row => !(stored.map (·.userId)).contains row.userId) = [] := by
      refine List.filter_eq_nil_iff.mpr fun row hrow => ?_
      have hmem : row.userId ∈ stored.map (·.userId) := List.mem_map_of_mem (hcache₂ row hrow)
      simpa using hmem
    unfold UsageTable.rows
    rw [hnew, List.append_nil]
    exact writeBack_self hunique hcache₂

/-! ### The startup migrations -/

theorem upsertActivity_writes (db : Db) (row : GroupDailyActiveUser) :
    db.Writes [.activeUsers] (upsertActivity db row) := by
  unfold upsertActivity
  dsimp only
  split
  · exact writes_activeUsers _
  · exact writes_activeUsers _

/-- After the usage rows the migrations write the rounds and the activity. -/
theorem initDb_writes (e : Env) (db : Db) :
    (migrateExistingUserUsage e db).Writes [.reservations, .activeUsers] (initDb e db) := by
  have hrounds : ∀ db : Db, db.Writes [.reservations, .activeUsers]
      (migrateActiveSlots (migrateAmbiguousRoastReservations db)) := fun db =>
    ((writes_reservations _).mono rfl).trans ((writes_reservations _).mono rfl)
  exact (hrounds _).trans ((Db.Writes.foldl upsertActivity_writes _ _).mono rfl)

/-- The migrations leave the tables of an import alone, but for the charges. -/
theorem initDb_writes_all (e : Env) (db : Db) :
    db.Writes [.userUsage, .reservations, .activeUsers] (initDb e db) := by
  have husage : db.Writes [.userUsage] (migrateExistingUserUsage e db) := by
    refine .one _ fun other hother => ?_
    cases other <;> first | rfl | exact absurd rfl hother
  exact (husage.mono rfl).trans ((initDb_writes e db).mono rfl)

/-- What the file says of the usage stays said. -/
theorem initDb_usage {rows : List UserUsage} (husage : db.userUsage = rows)
    (hunique : Unique (·.userId) rows) (htold : data.UsageTold rows) (e : Env) :
    Unique (·.userId) (initDb e db).userUsage ∧ data.UsageTold (initDb e db).userUsage := by
  subst husage
  have hsame : (initDb e db).userUsage = (migrateExistingUserUsage e db).userUsage :=
    initDb_writes e db .userUsage (by decide)
  rw [hsame]
  unfold migrateExistingUserUsage
  dsimp only
  refine ⟨?_, ?_, ?_⟩
  · unfold Tables.Unique at hunique ⊢
    rw [List.map_map]
    refine Eq.mpr (congrArg List.Nodup (List.map_congr_left fun row _ => ?_)) hunique
    dsimp only [Function.comp]
    split_ifs <;> rfl
  · intro m hm
    obtain ⟨row, hrow, hid, hlast⟩ := htold.roasts m hm
    refine ⟨_, List.mem_map_of_mem hrow, ?_, ?_⟩
    · split_ifs <;> exact hid
    · split_ifs <;> exact hlast
  · intro m hm
    obtain ⟨row, hrow, hid, hlast⟩ := htold.forces m hm
    refine ⟨_, List.mem_map_of_mem hrow, ?_, ?_⟩
    · split_ifs <;> exact hid
    · split_ifs <;> exact hlast

/-! ### The whole import -/

def groupRollKey (row : GroupRoll) : Date × String × String :=
  (row.dateStr, row.groupId, row.userId)

theorem Staged.commit_eq_some {α κ : Type} [DecidableEq κ] {key : α → κ} {table : Staged α}
    {rows : List α} : table.commit key = some rows ↔ Unique key table.rows ∧ table.rows = rows := by
  unfold Staged.commit
  simp

theorem UsageTable.commit_eq_some {rows : List UserUsage} :
    table.commit = some rows ↔ Tables.Unique (·.userId) table.rows ∧ table.rows = rows := by
  unfold UsageTable.commit
  simp

/-- What an import that is committed did. -/
theorem importLegacyJson_eq_some :
    importLegacyJson e data db = some db' ↔
      ∃ dailyRolls groupRolls collected usage roastEvents protections,
        importHistory e data { stored := db.dailyRolls } = some dailyRolls ∧
        importGroupRolls e data { stored := db.groupRolls } = some groupRolls ∧
        importCollection e data
          { collections := { stored := db.collections }
            userPigProgress := { stored := db.userPigProgress }
            userDrawState := { stored := db.userDrawState } } = some collected ∧
        (importUsage data { stored := db.userUsage }).bind (importForceUsage data) = some usage ∧
        importEvents e data { stored := db.roastEvents } = some roastEvents ∧
        importProtections data { stored := db.groupProtections } = some protections ∧
        (Unique rollKey dailyRolls.rows ∧ Unique groupRollKey groupRolls.rows ∧
          Unique collectionKey collected.collections.rows ∧
          Unique progressKey collected.userPigProgress.rows ∧
          Tables.Unique (·.userId) collected.userDrawState.rows ∧
          Unique protectionKey protections.rows ∧ Tables.Unique (·.userId) usage.rows) ∧
        { db with
          dailyRolls := dailyRolls.rows, groupRolls := groupRolls.rows
          collections := collected.collections.rows
          userPigProgress := collected.userPigProgress.rows
          userDrawState := collected.userDrawState.rows, userUsage := usage.rows
          roastEvents := roastEvents.rows, groupProtections := protections.rows } = db' := by
  constructor
  · intro h
    unfold importLegacyJson at h
    obtain ⟨dailyRolls, hrolls, h⟩ := Option.bind_eq_some_iff.mp h
    obtain ⟨groupRolls, hgroups, h⟩ := Option.bind_eq_some_iff.mp h
    obtain ⟨collected, hcollected, h⟩ := Option.bind_eq_some_iff.mp h
    obtain ⟨roasted, hroasted, h⟩ := Option.bind_eq_some_iff.mp h
    obtain ⟨usage, hforced, h⟩ := Option.bind_eq_some_iff.mp h
    obtain ⟨roastEvents, hevents, h⟩ := Option.bind_eq_some_iff.mp h
    obtain ⟨protections, hprotections, h⟩ := Option.bind_eq_some_iff.mp h
    obtain ⟨_, hrows₁, h⟩ := Option.bind_eq_some_iff.mp h
    obtain ⟨_, hrows₂, h⟩ := Option.bind_eq_some_iff.mp h
    obtain ⟨_, hrows₃, h⟩ := Option.bind_eq_some_iff.mp h
    obtain ⟨_, hrows₄, h⟩ := Option.bind_eq_some_iff.mp h
    obtain ⟨_, hrows₅, h⟩ := Option.bind_eq_some_iff.mp h
    obtain ⟨_, hrows₆, h⟩ := Option.bind_eq_some_iff.mp h
    obtain ⟨_, hrows₇, h⟩ := Option.bind_eq_some_iff.mp h
    obtain ⟨hunique₁, rfl⟩ := Staged.commit_eq_some.mp hrows₁
    obtain ⟨hunique₂, rfl⟩ := Staged.commit_eq_some.mp hrows₂
    obtain ⟨hunique₃, rfl⟩ := Staged.commit_eq_some.mp hrows₃
    obtain ⟨hunique₄, rfl⟩ := Staged.commit_eq_some.mp hrows₄
    obtain ⟨hunique₅, rfl⟩ := Staged.commit_eq_some.mp hrows₅
    obtain ⟨hunique₆, rfl⟩ := Staged.commit_eq_some.mp hrows₆
    obtain ⟨hunique₇, rfl⟩ := UsageTable.commit_eq_some.mp hrows₇
    have husage : (importUsage data { stored := db.userUsage }).bind (importForceUsage data) =
        some usage := by rw [hroasted]; exact hforced
    exact ⟨dailyRolls, groupRolls, collected, usage, roastEvents, protections, hrolls, hgroups,
      hcollected, husage, hevents, hprotections,
      ⟨hunique₁, hunique₂, hunique₃, hunique₄, hunique₅, hunique₆, hunique₇⟩, Option.some.inj h⟩
  · rintro ⟨dailyRolls, groupRolls, collected, usage, roastEvents, protections, hrolls, hgroups,
      hcollected, husage, hevents, hprotections,
      ⟨hunique₁, hunique₂, hunique₃, hunique₄, hunique₅, hunique₆, hunique₇⟩, rfl⟩
    obtain ⟨roasted, hroasted, hforced⟩ := Option.bind_eq_some_iff.mp husage
    have hrows₁ := Staged.commit_eq_some.mpr ⟨hunique₁, rfl⟩
    have hrows₂ := Staged.commit_eq_some.mpr ⟨hunique₂, rfl⟩
    have hrows₃ := Staged.commit_eq_some.mpr ⟨hunique₃, rfl⟩
    have hrows₄ := Staged.commit_eq_some.mpr ⟨hunique₄, rfl⟩
    have hrows₅ := Staged.commit_eq_some.mpr ⟨hunique₅, rfl⟩
    have hrows₆ := Staged.commit_eq_some.mpr ⟨hunique₆, rfl⟩
    have hrows₇ := UsageTable.commit_eq_some.mpr ⟨hunique₇, rfl⟩
    unfold rollKey at hrows₁
    unfold groupRollKey at hrows₂
    unfold collectionKey at hrows₃
    unfold progressKey at hrows₄
    unfold protectionKey at hrows₆
    unfold importLegacyJson
    rw [hrolls, hgroups, hcollected, hroasted]
    simp only [Option.bind_eq_bind, Option.bind_some, hforced, hevents, hprotections, hrows₁,
      hrows₂, hrows₃, hrows₄, hrows₅, hrows₆, hrows₇]

/-! ### The rows of a file -/

def newDailyRoll (e : Env) (r : LegacyDate × String × String) : DailyRoll :=
  { userId := r.2.1, pigId := r.2.2, dateStr := parseDate r.1, createdAt := e.dbNow }

def newGroupRoll (e : Env) (r : LegacyDate × String × String × String) : GroupRoll :=
  { dateStr := parseDate r.1, groupId := r.2.1, userId := r.2.2.1, pigId := r.2.2.2
    seenAt := e.dbNow }

/-- What of an event is imported. -/
def eventContent (r : LegacyDate × LegacyEvent) : Date × List String :=
  (parseDate r.1, [r.2.groupId.getD "", r.2.type.getD "", r.2.attacker.getD "",
    r.2.target.getD "", r.2.attackerName.getD "", r.2.targetName.getD "", r.2.food.getD ""])

def newRoastEvent (e : Env) (r : LegacyDate × LegacyEvent) : RoastEvent :=
  { dateStr := parseDate r.1, groupId := r.2.groupId.getD "", eventType := r.2.type.getD ""
    attackerId := r.2.attacker.getD "", targetId := r.2.target.getD ""
    attackerName := r.2.attackerName.getD "", targetName := r.2.targetName.getD ""
    foodName := r.2.food.getD "", reservationId := "", participantSnapshot := none
    createdAt := e.dbNow }

def newProtection (r : LegacyDate × String × String) : GroupProtection :=
  { protectDate := parseDate r.1, groupId := r.2.1, userId := r.2.2 }

/-- No two entries of the file meet in one row. -/
structure LegacyData.Plain (data : LegacyData) : Prop where
  rolls : ((data.rolls.filter fun r => r.2.2 ≠ "").map fun r => (parseDate r.1, r.2.1)).Nodup
  appearances : ((data.appearances.filter fun r => r.2.2.2 ≠ "").map fun r =>
    (parseDate r.1, r.2.1, r.2.2.1)).Nodup
  collection : ∀ m ∈ data.collection.members, m.2.length ≤ 1
  events : (data.events.map eventContent).Nodup
  protectedUsers : (data.protectedUsers.map fun r => (parseDate r.1, r.2.1, r.2.2)).Nodup

/-- Rows made from records have distinct keys if the records say so. -/
theorem unique_rows {ρ α κ : Type} {key : α → κ} {row : ρ → α} {keyOf : ρ → κ} {records : List ρ}
    (hrow : ∀ r, key (row r) = keyOf r) :
    Tables.Unique key (records.map row) ↔ (records.map keyOf).Nodup := by
  unfold Tables.Unique
  rw [List.map_map]
  exact iff_of_eq (congrArg List.Nodup (List.map_congr_left fun r _ => hrow r))

/-- The users of the collected pigs repeat where a user has several pigs. -/
theorem collected_nodup (data : LegacyData) :
    (data.collected.map Prod.fst).Nodup ↔ ∀ m ∈ data.collection.members, m.2.length ≤ 1 := by
  have hnodup := data.collection.nodup
  unfold LegacyData.collected
  generalize data.collection.members = members at hnodup
  induction members with
  | nil => simp
  | cons m members ih =>
      obtain ⟨hfresh, hrest⟩ := List.nodup_cons.mp hnodup
      have hhead : ((m.2.map fun pigId => (m.1, pigId)).map Prod.fst) =
          List.replicate m.2.length m.1 := by
        simp [List.map_map, Function.comp_def, List.map_const']
      rw [List.flatMap_cons, List.map_append, List.nodup_append]
      show ((m.2.map fun pigId => (m.1, pigId)).map Prod.fst).Nodup ∧ _ ↔ _
      rw [hhead, List.nodup_replicate, List.forall_mem_cons]
      refine and_congr_right fun _ => (and_iff_left ?_).trans (ih hrest)
      intro a ha b hb hab
      obtain rfl := (List.mem_replicate.mp ha).2
      obtain ⟨c, hc, rfl⟩ := List.mem_map.mp hb
      obtain ⟨other, hother, hpig⟩ := List.mem_flatMap.mp hc
      obtain ⟨pigId, -, rfl⟩ := List.mem_map.mp hpig
      exact hfresh (hab ▸ List.mem_map_of_mem hother)

/-! ### Into the empty database -/

/-- The database a first import leaves, but for its usage rows. -/
def LegacyData.imported (e : Env) (data : LegacyData) (usage : List UserUsage) : Db :=
  { dailyRolls := (data.rolls.filter fun r => r.2.2 ≠ "").map (newDailyRoll e)
    groupRolls := (data.appearances.filter fun r => r.2.2.2 ≠ "").map (newGroupRoll e)
    collections := data.collected.map (newCollection e)
    userPigProgress := data.collected.map (newProgress e)
    userDrawState := data.collected.map newDrawState
    userUsage := usage
    roastEvents := data.events.map (newRoastEvent e)
    groupProtections := data.protectedUsers.map newProtection }

/-- **The first import** is committed if no two rows have one key. -/
theorem importLegacyJson_empty (e : Env) (data : LegacyData) :
    ∃ usage, Tables.Unique (·.userId) usage ∧ data.UsageTold usage ∧
      ∀ db, importLegacyJson e data {} = some db ↔
        (Unique rollKey (data.imported e usage).dailyRolls ∧
          Unique groupRollKey (data.imported e usage).groupRolls ∧
          Unique collectionKey (data.imported e usage).collections ∧
          Unique progressKey (data.imported e usage).userPigProgress ∧
          Tables.Unique (·.userId) (data.imported e usage).userDrawState ∧
          Unique protectionKey (data.imported e usage).groupProtections) ∧
        data.imported e usage = db := by
  obtain ⟨usage, husage, hunique, htold⟩ := importUsage_empty data
  have hrolls : importHistory e data { stored := [] } = some
      { stored := [], added := (data.imported e usage.rows).dailyRolls } :=
    foldlM_importRecord_empty rfl data.rolls
  have hgroups : importGroupRolls e data { stored := [] } = some
      { stored := [], added := (data.imported e usage.rows).groupRolls } :=
    foldlM_importRecord_empty rfl data.appearances
  have hcollected := @foldlM_importCollected_empty e
    { collections := { stored := [] }, userPigProgress := { stored := [] }
      userDrawState := { stored := [] } } rfl rfl rfl data.collected
  have hevents : importEvents e data { stored := [] } = some
      { stored := [], added := (data.imported e usage.rows).roastEvents } :=
    Staged.foldlM_addMissing_empty RoastEvent.imported (newRoastEvent e) rfl data.events
  have hprotections : importProtections data { stored := [] } = some
      { stored := [], added := (data.imported e usage.rows).groupProtections } :=
    Staged.foldlM_addMissing_empty protectionKey newProtection rfl data.protectedUsers
  refine ⟨usage.rows, hunique, htold, fun db => ?_⟩
  rw [importLegacyJson_eq_some]
  constructor
  · rintro ⟨dailyRolls, groupRolls, collected, usage', roastEvents, protections, hrolls', hgroups',
      hcollected', husage', hevents', hprotections',
      ⟨hunique₁, hunique₂, hunique₃, hunique₄, hunique₅, hunique₆, -⟩, hdb⟩
    obtain rfl := Option.some.inj (hrolls.symm.trans hrolls')
    obtain rfl := Option.some.inj (hgroups.symm.trans hgroups')
    obtain rfl := Option.some.inj (hcollected.symm.trans hcollected')
    obtain rfl := Option.some.inj (husage.symm.trans husage')
    obtain rfl := Option.some.inj (hevents.symm.trans hevents')
    obtain rfl := Option.some.inj (hprotections.symm.trans hprotections')
    exact ⟨⟨hunique₁, hunique₂, hunique₃, hunique₄, hunique₅, hunique₆⟩, hdb⟩
  · rintro ⟨⟨hunique₁, hunique₂, hunique₃, hunique₄, hunique₅, hunique₆⟩, hdb⟩
    exact ⟨_, _, _, usage, _, _, hrolls, hgroups, hcollected, husage, hevents, hprotections,
      ⟨hunique₁, hunique₂, hunique₃, hunique₄, hunique₅, hunique₆, hunique⟩, hdb⟩

/-! ### A second time -/

/-- Events that are imported into one row cannot be looked up again. -/
theorem importEvents_ambiguous (e e' : Env) (h : ¬(data.events.map eventContent).Nodup) :
    importEvents e' data { stored := data.events.map (newRoastEvent e) } = none := by
  have hrows : ¬Unique RoastEvent.imported (data.events.map (newRoastEvent e)) := by
    unfold Tables.Unique
    rw [List.map_map]
    exact h
  obtain ⟨row, hrow, hnone⟩ := Staged.one?_ambiguous
    (t := { stored := data.events.map (newRoastEvent e) }) hrows
  obtain ⟨r, hr, rfl⟩ := List.mem_map.mp hrow
  exact Staged.foldlM_addMissing_ambiguous hr hnone

variable {usage : List UserUsage}

/-- The rows of a file whose entries do not meet. -/
theorem LegacyData.Plain.unique (h : data.Plain) (e : Env) (usage : List UserUsage) :
    Unique rollKey (data.imported e usage).dailyRolls ∧
      Unique groupRollKey (data.imported e usage).groupRolls ∧
      Unique collectionKey (data.imported e usage).collections ∧
      Unique progressKey (data.imported e usage).userPigProgress ∧
      Tables.Unique (·.userId) (data.imported e usage).userDrawState ∧
      Unique protectionKey (data.imported e usage).groupProtections := by
  have husers : (data.collected.map Prod.fst).Nodup := (collected_nodup data).mpr h.collection
  have hpairs : data.collected.Nodup := List.Nodup.of_map _ husers
  refine ⟨(unique_rows fun _ => rfl).mpr h.rolls, (unique_rows fun _ => rfl).mpr h.appearances,
    (unique_rows fun _ => rfl).mpr ?_, (unique_rows fun _ => rfl).mpr ?_,
    (unique_rows fun _ => rfl).mpr husers, (unique_rows fun _ => rfl).mpr h.protectedUsers⟩
  · exact (List.map_id data.collected).symm ▸ hpairs
  · exact (List.map_id data.collected).symm ▸ hpairs

/-- **A second import** of a file whose entries do not meet changes nothing. -/
theorem importLegacyJson_again (h : data.Plain) (e e' : Env)
    (hsame : (data.imported e usage).Writes [.userUsage, .reservations, .activeUsers] db)
    (hunique : Tables.Unique (·.userId) db.userUsage) (htold : data.UsageTold db.userUsage) :
    importLegacyJson e' data db = some db := by
  obtain ⟨hunique₁, hunique₂, hunique₃, hunique₄, hunique₅, hunique₆⟩ := h.unique e usage
  have hdailyRolls : db.dailyRolls = _ := hsame .dailyRolls (by decide)
  have hgroupRolls : db.groupRolls = _ := hsame .groupRolls (by decide)
  have hcollections : db.collections = _ := hsame .collections (by decide)
  have huserPigProgress : db.userPigProgress = _ := hsame .userPigProgress (by decide)
  have huserDrawState : db.userDrawState = _ := hsame .userDrawState (by decide)
  have hroastEvents : db.roastEvents = _ := hsame .roastEvents (by decide)
  have hgroupProtections : db.groupProtections = _ := hsame .groupProtections (by decide)
  rw [← hdailyRolls] at hunique₁
  rw [← hgroupRolls] at hunique₂
  rw [← hcollections] at hunique₃
  rw [← huserPigProgress] at hunique₄
  rw [← huserDrawState] at hunique₅
  rw [← hgroupProtections] at hunique₆
  have hrolls : importHistory e' data { stored := db.dailyRolls } =
      some { stored := db.dailyRolls } := by
    refine foldlM_importRecord_known hunique₁ data.rolls fun r hr hpig => ?_
    show _ ∈ db.dailyRolls.map rollKey
    rw [hdailyRolls]
    exact List.mem_map.mpr ⟨newDailyRoll e r,
      List.mem_map_of_mem (List.mem_filter.mpr ⟨hr, decide_eq_true hpig⟩), rfl⟩
  have hgroups : importGroupRolls e' data { stored := db.groupRolls } =
      some { stored := db.groupRolls } := by
    refine foldlM_importRecord_known hunique₂ data.appearances fun r hr hpig => ?_
    show _ ∈ db.groupRolls.map groupRollKey
    rw [hgroupRolls]
    exact List.mem_map.mpr ⟨newGroupRoll e r,
      List.mem_map_of_mem (List.mem_filter.mpr ⟨hr, decide_eq_true hpig⟩), rfl⟩
  have hcollected := @foldlM_importCollected_known e'
    { collections := { stored := db.collections }
      userPigProgress := { stored := db.userPigProgress }
      userDrawState := { stored := db.userDrawState } } hunique₃ hunique₄ hunique₅ data.collected
    fun c hc => by
      show c ∈ db.collections.map collectionKey ∧ c ∈ db.userPigProgress.map progressKey ∧
        c.1 ∈ db.userDrawState.map (·.userId)
      rw [hcollections, huserPigProgress, huserDrawState]
      exact ⟨List.mem_map.mpr ⟨newCollection e c, List.mem_map_of_mem hc, rfl⟩,
        List.mem_map.mpr ⟨newProgress e c, List.mem_map_of_mem hc, rfl⟩,
        List.mem_map.mpr ⟨newDrawState c, List.mem_map_of_mem hc, rfl⟩⟩
  have hevents : importEvents e' data { stored := db.roastEvents } =
      some { stored := db.roastEvents } := by
    have hunique : Unique RoastEvent.imported db.roastEvents := by
      rw [hroastEvents]
      exact (unique_rows fun _ => rfl).mpr h.events
    refine Staged.foldlM_addMissing_known hunique fun r hr => ?_
    show _ ∈ db.roastEvents.map RoastEvent.imported
    rw [hroastEvents]
    exact List.mem_map.mpr ⟨newRoastEvent e r, List.mem_map_of_mem hr, rfl⟩
  have hprotections : importProtections data { stored := db.groupProtections } =
      some { stored := db.groupProtections } := by
    refine Staged.foldlM_addMissing_known hunique₆ fun r hr => ?_
    show _ ∈ db.groupProtections.map protectionKey
    rw [hgroupProtections]
    exact List.mem_map.mpr ⟨newProtection r, List.mem_map_of_mem hr, rfl⟩
  obtain ⟨usage', husage, hrows⟩ := importUsage_known hunique htold
  refine importLegacyJson_eq_some.mpr ⟨_, _, _, usage', _, _, hrolls, hgroups, hcollected, husage,
    hevents, hprotections, ?_, ?_⟩
  · simp only [Staged.rows, List.append_nil, hrows]
    exact ⟨hunique₁, hunique₂, hunique₃, hunique₄, hunique₅, hunique₆, hunique⟩
  · simp only [Staged.rows, List.append_nil, hrows]

/-! ### Importing twice -/

/-- The file goes into the empty database, and importing it again leaves every table as it
is; run as a whole, the tool adds nothing to what the startup migrations make of them. -/
def ImportsTwice (e₁ e₂ : Env) (data : LegacyData) : Prop :=
  ∃ db, importMain e₁ data {} = some db ∧ importLegacyJson e₂ data db = some db ∧
    importMain e₂ data db = some (initDb e₂ db)

theorem initDb_empty (e : Env) : initDb e {} = {} := rfl

/-- **A file can be imported twice exactly if no two of its entries meet in one row**: in
particular, no user of it may have two pigs. -/
theorem imports_twice_iff (e₁ e₂ : Env) (data : LegacyData) :
    ImportsTwice e₁ e₂ data ↔ data.Plain := by
  obtain ⟨usage, hunique, htold, hfirst⟩ := importLegacyJson_empty e₁ data
  unfold ImportsTwice importMain
  rw [initDb_empty]
  constructor
  · rintro ⟨db, hdb, -, hagain⟩
    obtain ⟨⟨hrolls, hgroups, -, -, hdraws, hprotections⟩, rfl⟩ := (hfirst db).mp hdb
    have husers : Tables.Unique (·.userId) (data.collected.map newDrawState) ↔
        (data.collected.map Prod.fst).Nodup := unique_rows fun _ => rfl
    refine ⟨(unique_rows fun _ => rfl).mp hrolls, (unique_rows fun _ => rfl).mp hgroups,
      (collected_nodup data).mp (husers.mp hdraws), ?_,
      (unique_rows fun _ => rfl).mp hprotections⟩
    by_contra hevents
    have hstored : (initDb e₂ (data.imported e₁ usage)).roastEvents =
        data.events.map (newRoastEvent e₁) :=
      initDb_writes_all e₂ (data.imported e₁ usage) .roastEvents (by decide)
    obtain ⟨_, _, _, _, _, _, -, -, -, -, himported, -⟩ := importLegacyJson_eq_some.mp hagain
    rw [hstored, importEvents_ambiguous e₁ e₂ hevents] at himported
    simp at himported
  · intro hplain
    obtain ⟨hunique', htold'⟩ := initDb_usage
      (rfl : (data.imported e₁ usage).userUsage = usage) hunique htold e₂
    exact ⟨_, (hfirst _).mpr ⟨hplain.unique e₁ usage, rfl⟩,
      importLegacyJson_again hplain e₁ e₂ .refl hunique htold,
      importLegacyJson_again hplain e₁ e₂ (initDb_writes_all e₂ _) hunique' htold'⟩

/-- A file that is plain, and one of a user with two pigs. -/
def onePig : LegacyData :=
  { collection := { members := [("1", ["pig"]), ("2", ["pig"])], nodup := by decide }
    usage := { members := [("1", some 1700000000)], nodup := by decide } }

def twoPigs : LegacyData :=
  { collection := { members := [("1", ["pig", "boar"])], nodup := by decide } }

def importEnv : Env := { now := 739000 * dayMicros, dbNow := 739000 * dayMicros, uuid := toString }

example : (importMain importEnv onePig {}).isSome = true := by decide +kernel

/-- The second draw state of the user breaks the unique key. -/
theorem two_pigs_fail : ¬ImportsTwice importEnv importEnv twoPigs := by
  rintro ⟨db, hfirst, -⟩
  have hfails : (importMain importEnv twoPigs {}).isSome = false := by decide +kernel
  rw [hfirst] at hfails
  simp at hfails

end RollPig
