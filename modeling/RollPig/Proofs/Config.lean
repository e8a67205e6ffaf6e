/-
Who is let in, and under which key that is counted.

The settings of an instance are read in two loops.  The first of them either stops at an error
or adds every named key, the second gives a token without a name its own id.  So a token is
known by what was configured for it, and its id by nothing but the token: settings that name
their keys differently, on other instances or after a restart, count into the same rows.
-/
import RollPig.Config
import RollPig.Proofs.KeyUsage

namespace RollPig

open Transition

variable {k : ConfigEnv} {identities out : List (String × ApiKeyIdentity)} {token : String}
  {members : List (String × Option String)} {member : String × Option String}

/-! ### The named keys -/

/-- The token of a member. -/
def memberToken (member : String × Option String) : String := strip (member.2.getD "")

/-- The key a member configures. -/
def namedKey (k : ConfigEnv) (member : String × Option String) : String × ApiKeyIdentity :=
  (memberToken member, { keyId := tokenKeyId k (memberToken member), name := strip member.1 })

/-- A member with a name that may stand in a log, and with a token. -/
structure WellNamed (member : String × Option String) : Prop where
  name : strip member.1 ≠ ""
  length : (strip member.1).length ≤ keyNameMaxLength
  printable : ∀ c ∈ (strip member.1).toList, 32 ≤ c.toNat
  token : memberToken member ≠ ""

theorem normalizeKeyName_ok {value name : String} :
    normalizeKeyName value = .ok name ↔ name = strip value ∧ strip value ≠ "" ∧
      (strip value).length ≤ keyNameMaxLength ∧ ∀ c ∈ (strip value).toList, 32 ≤ c.toNat := by
  unfold normalizeKeyName
  dsimp only
  split
  · rename_i hempty
    exact ⟨fun h => absurd h (by simp), fun h => absurd hempty h.2.1⟩
  · rename_i hname
    split
    · rename_i hlong
      exact ⟨fun h => absurd h (by simp), fun h => absurd h.2.2.1 (Nat.not_le.mpr hlong)⟩
    · rename_i hshort
      split
      · rename_i hcontrol
        refine ⟨fun h => absurd h (by simp), fun h => ?_⟩
        obtain ⟨c, hc, hlow⟩ := List.any_eq_true.mp hcontrol
        have hhigh := h.2.2.2 c hc
        have hlow' : c.toNat < 32 := of_decide_eq_true hlow
        omega
      · rename_i hplain
        refine ⟨fun h => ⟨(Except.ok.inj h).symm, hname, Nat.not_lt.mp hshort, fun c hc => ?_⟩,
          fun h => congrArg _ h.1.symm⟩
        by_contra hlow
        exact hplain (List.any_eq_true.mpr ⟨c, hc, decide_eq_true (Nat.not_le.mp hlow)⟩)

/-- One member is added, or refused. -/
theorem addNamedKey_ok : addNamedKey k identities member = .ok out ↔
    WellNamed member ∧ memberToken member ∉ identities.map (·.1) ∧
      out = identities ++ [namedKey k member] := by
  unfold addNamedKey
  cases hname : normalizeKeyName member.1 with
  | error message =>
      refine ⟨fun h => absurd h (by simp), fun h => ?_⟩
      have hok := normalizeKeyName_ok.mpr ⟨rfl, h.1.name, h.1.length, h.1.printable⟩
      rw [hname] at hok
      exact absurd hok (by simp)
  | ok name =>
      obtain ⟨rfl, hsome, hshort, hplain⟩ := normalizeKeyName_ok.mp hname
      dsimp only
      split
      · rename_i hempty
        exact ⟨fun h => absurd h (by simp), fun h => absurd hempty h.1.token⟩
      · rename_i htoken
        split
        · rename_i hknown
          exact ⟨fun h => absurd h (by simp), fun h => absurd hknown h.2.1⟩
        · rename_i hnew
          refine ⟨fun h => ⟨⟨hsome, hshort, hplain, htoken⟩, hnew, (Except.ok.inj h).symm⟩,
            fun h => ?_⟩
          rw [h.2.2]
          rfl

/-- **All named keys are added, or none**, by induction on the members. -/
theorem addNamedKeys_ok : members.foldlM (addNamedKey k) identities = .ok out ↔
    (∀ member ∈ members, WellNamed member) ∧ (members.map memberToken).Nodup ∧
      (∀ member ∈ members, memberToken member ∉ identities.map (·.1)) ∧
      out = identities ++ members.map (namedKey k) := by
  induction members generalizing identities with
  | nil =>
      show Except.ok identities = .ok out ↔ _
      simp [eq_comm]
  | cons first rest ih =>
      rw [List.foldlM_cons]
      cases hadded : addNamedKey k identities first with
      | error message =>
          refine ⟨fun h => absurd h (by simp [bind, Except.bind]), fun h => ?_⟩
          have hok : addNamedKey k identities first = .ok (identities ++ [namedKey k first]) :=
            addNamedKey_ok.mpr
              ⟨h.1 first List.mem_cons_self, h.2.2.1 first List.mem_cons_self, rfl⟩
          rw [hadded] at hok
          exact absurd hok (by simp)
      | ok next =>
          obtain ⟨hnamed, hnew, rfl⟩ := addNamedKey_ok.mp hadded
          show rest.foldlM (addNamedKey k) (identities ++ [namedKey k first]) = .ok out ↔ _
          rw [ih]
          have htokens : ∀ token, token ∉ (identities ++ [namedKey k first]).map (·.1) ↔
              token ∉ identities.map (·.1) ∧ token ≠ memberToken first := by
            intro token
            rw [List.map_append, List.mem_append, not_or]
            exact and_congr_right fun _ => by simp [namedKey]
          simp only [htokens, List.map_cons, List.nodup_cons, List.forall_mem_cons,
            List.append_assoc, List.singleton_append]
          constructor
          · rintro ⟨hrest, hnodup, hothers, rfl⟩
            refine ⟨⟨hnamed, hrest⟩, ⟨fun hmem => ?_, hnodup⟩,
              ⟨hnew, fun m hm => (hothers m hm).1⟩, rfl⟩
            obtain ⟨m, hm, hsame⟩ := List.mem_map.mp hmem
            exact (hothers m hm).2 hsame
          · rintro ⟨⟨-, hrest⟩, ⟨hfirst, hnodup⟩, ⟨-, hothers⟩, rfl⟩
            refine ⟨hrest, hnodup, fun m hm => ⟨hothers m hm, fun hsame => hfirst ?_⟩, rfl⟩
            exact List.mem_map.mpr ⟨m, hm, hsame⟩

/-! ### The tokens without names -/

theorem lookup_none_iff {α : Type} {rows : List (String × α)} :
    rows.lookup token = none ↔ token ∉ rows.map (·.1) := by
  rw [List.lookup_eq_none_iff, List.mem_map]
  constructor
  · rintro h ⟨row, hrow, rfl⟩
    simpa using h row hrow
  · intro h row hrow
    simp only [bne_iff_ne, ne_eq]
    exact fun hsame => h ⟨row, hrow, hsame.symm⟩

/-- The key of a token without a name. -/
def legacyIdentity (k : ConfigEnv) (token : String) : ApiKeyIdentity :=
  { keyId := tokenKeyId k token, name := tokenKeyId k token }

theorem addLegacyToken_lookup (rawToken : String) :
    (addLegacyToken k identities rawToken).lookup token =
      (identities.lookup token).or
        (if token ≠ "" ∧ token = strip rawToken then some (legacyIdentity k token) else none) := by
  unfold addLegacyToken
  dsimp only
  split
  · rename_i hnew
    rw [List.lookup_append]
    by_cases hsame : token = strip rawToken
    · rw [if_pos ⟨hsame ▸ hnew.1, hsame⟩, hsame]
      simp [List.lookup, legacyIdentity]
    · have hother : (token == strip rawToken) = false := by simpa using hsame
      rw [if_neg fun h => hsame h.2]
      simp [List.lookup, hother]
  · rename_i hold
    by_cases hsame : token ≠ "" ∧ token = strip rawToken
    · have hknown : token ∈ identities.map (·.1) := by
        by_contra hnew
        exact hold ⟨hsame.2 ▸ hsame.1, hsame.2 ▸ hnew⟩
      cases hlookup : identities.lookup token with
      | none => exact absurd hknown (lookup_none_iff.mp hlookup)
      | some identity => rfl
    · rw [if_neg hsame, Option.or_none]

/-- The second loop gives a listed token its own id, unless it has a name. -/
theorem addLegacyTokens_lookup (rawTokens : List String) :
    (rawTokens.foldl (addLegacyToken k) identities).lookup token =
      (identities.lookup token).or
        (if token ≠ "" ∧ token ∈ rawTokens.map strip then some (legacyIdentity k token)
          else none) := by
  induction rawTokens generalizing identities with
  | nil => simp
  | cons rawToken rest ih =>
      rw [List.foldl_cons, ih, addLegacyToken_lookup, Option.or_assoc]
      congr 1
      by_cases hempty : token = ""
      · simp [hempty]
      · by_cases hfirst : token = strip rawToken
        · simp [hempty, ← hfirst]
        · simp [hempty, hfirst]

/-! ### The settings -/

/-- What `ROLLPIG_CLOUD_KEYS_JSON` has to be. -/
structure Startable (k : ConfigEnv) (namedKeysRaw : String)
    (members : List (String × Option String)) : Prop where
  loaded : loadNamedKeys k namedKeysRaw = .ok members
  named : ∀ member ∈ members, WellNamed member
  tokens : (members.map memberToken).Nodup

theorem parseApiKeys_ok {namedKeysRaw legacyTokensRaw : String} :
    parseApiKeys k namedKeysRaw legacyTokensRaw = .ok out ↔
      ∃ members, Startable k namedKeysRaw members ∧
        out =
          (splitCommas legacyTokensRaw).foldl (addLegacyToken k) (members.map (namedKey k)) := by
  unfold parseApiKeys
  cases hloaded : loadNamedKeys k namedKeysRaw with
  | error message =>
      refine ⟨fun h => absurd h (by simp), fun h => ?_⟩
      obtain ⟨members, hstart, -⟩ := h
      have hok := hstart.loaded
      rw [hloaded] at hok
      exact absurd hok (by simp)
  | ok members =>
      dsimp only
      have hfold := @addNamedKeys_ok k []
      cases hnamed : members.foldlM (addNamedKey k) [] with
      | error message =>
          refine ⟨fun h => absurd h (by simp), fun h => ?_⟩
          obtain ⟨members', hstart, -⟩ := h
          obtain rfl : members = members' := Except.ok.inj (hloaded.symm.trans hstart.loaded)
          have hok := hfold.mpr ⟨hstart.named, hstart.tokens, fun _ _ => List.not_mem_nil, rfl⟩
          rw [hnamed] at hok
          exact absurd hok (by simp)
      | ok named =>
          obtain ⟨hnames, htokens, -, rfl⟩ := hfold.mp hnamed
          rw [List.nil_append]
          refine ⟨fun h => ⟨members, ⟨hloaded, hnames, htokens⟩, (Except.ok.inj h).symm⟩,
            fun h => ?_⟩
          obtain ⟨members', hstart, rfl⟩ := h
          obtain rfl : members = members' := Except.ok.inj (hloaded.symm.trans hstart.loaded)
          rfl

/-- The settings give the token this identity: the name it is configured under, or, without a
name, its id. -/
inductive Settings.Grants (s : Settings k) (token : String) : ApiKeyIdentity → Prop
  | named {members : List (String × Option String)} (hstart : Startable k s.namedKeysRaw members)
      {member : String × Option String} (hmember : member ∈ members)
      (htoken : memberToken member = token) :
      s.Grants token { keyId := tokenKeyId k token, name := strip member.1 }
  | legacy {members : List (String × Option String)} (hstart : Startable k s.namedKeysRaw members)
      (hunnamed : token ∉ members.map memberToken) (htoken : token ≠ "")
      (hlisted : token ∈ (splitCommas s.legacyTokensRaw).map strip) :
      s.Grants token (legacyIdentity k token)

theorem Settings.Grants.keyId {s : Settings k} {identity : ApiKeyIdentity}
    (h : s.Grants token identity) : identity.keyId = tokenKeyId k token := by
  cases h with
  | named => rfl
  | legacy => rfl

theorem namedKeys_lookup (htokens : (members.map memberToken).Nodup) {identity : ApiKeyIdentity} :
    (members.map (namedKey k)).lookup token = some identity ↔
      ∃ member ∈ members, memberToken member = token ∧
        identity = { keyId := tokenKeyId k token, name := strip member.1 } := by
  induction members with
  | nil => simp
  | cons first rest ih =>
      rw [List.map_cons, List.nodup_cons] at htokens
      obtain ⟨hfirst, hrest⟩ := htokens
      rw [List.map_cons]
      show List.lookup token ((memberToken first, _) :: _) = _ ↔ _
      by_cases hsame : token = memberToken first
      · have hhere : (token == memberToken first) = true := by simpa using hsame
        rw [List.lookup_cons, hhere]
        constructor
        · intro h
          obtain rfl := Option.some.inj h
          exact ⟨first, List.mem_cons_self, hsame.symm, by rw [hsame]⟩
        · rintro ⟨member, hmember, htoken, rfl⟩
          rcases List.mem_cons.mp hmember with rfl | hthere
          · rw [← hsame]
          · exact absurd (List.mem_map.mpr ⟨member, hthere, htoken.trans hsame⟩) hfirst
      · have hother : (token == memberToken first) = false := by simpa using hsame
        rw [List.lookup_cons, hother, ih hrest]
        constructor
        · rintro ⟨member, hmember, hrest⟩
          exact ⟨member, List.mem_cons_of_mem _ hmember, hrest⟩
        · rintro ⟨member, hmember, htoken, hidentity⟩
          rcases List.mem_cons.mp hmember with rfl | hthere
          · exact absurd htoken.symm hsame
          · exact ⟨member, hthere, htoken, hidentity⟩

/-- **The keys of the settings are what was configured.** -/
theorem Settings.lookup_iff (s : Settings k) {identity : ApiKeyIdentity} :
    s.apiKeys.lookup token = some identity ↔ s.Grants token identity := by
  obtain ⟨members, hstart, hkeys⟩ := parseApiKeys_ok.mp s.parsed
  rw [hkeys, addLegacyTokens_lookup]
  have hsame : ∀ {members'}, Startable k s.namedKeysRaw members' → members' = members :=
    fun hstart' => Except.ok.inj (hstart'.loaded.symm.trans hstart.loaded)
  cases hnamed : (members.map (namedKey k)).lookup token with
  | some found =>
      obtain ⟨member, hmember, htoken, hfound⟩ := (namedKeys_lookup hstart.tokens).mp hnamed
      rw [Option.some_or]
      constructor
      · intro h
        obtain rfl := Option.some.inj h
        rw [hfound]
        exact .named hstart hmember htoken
      · intro h
        rw [← hnamed]
        cases h with
        | named hstart' hmember' htoken' =>
            obtain rfl := hsame hstart'
            exact (namedKeys_lookup hstart.tokens).mpr ⟨_, hmember', htoken', rfl⟩
        | legacy hstart' hunnamed =>
            obtain rfl := hsame hstart'
            exact absurd (List.mem_map.mpr ⟨member, hmember, htoken⟩) hunnamed
  | none =>
      have hunnamed : token ∉ members.map memberToken := by
        have hnone := lookup_none_iff.mp hnamed
        rwa [List.map_map] at hnone
      rw [Option.none_or]
      constructor
      · intro h
        split at h
        · rename_i hlisted
          obtain rfl := Option.some.inj h
          exact .legacy hstart hunnamed hlisted.1 hlisted.2
        · exact absurd h (by simp)
      · intro h
        cases h with
        | named hstart' hmember' htoken' =>
            obtain rfl := hsame hstart'
            exact absurd (List.mem_map.mpr ⟨_, hmember', htoken'⟩) hunnamed
        | legacy hstart' hunnamed' htoken hlisted => exact if_pos ⟨htoken, hlisted⟩

/-- The header names a token the settings give this identity. -/
def Settings.LetsIn (s : Settings k) (credentials : Option (String × String))
    (identity : ApiKeyIdentity) : Prop :=
  ∃ scheme token, credentials = some (scheme, token) ∧ scheme.toLower = "bearer" ∧
    s.Grants token identity

theorem verifyToken_ok (s : Settings k) (credentials : Option (String × String))
    (identity : ApiKeyIdentity) :
    verifyToken s.apiKeys credentials = .ok identity ↔ s.LetsIn credentials identity := by
  unfold verifyToken Settings.LetsIn
  split
  · rename_i hnone
    refine ⟨fun h => absurd h (by simp), fun h => ?_⟩
    obtain ⟨scheme, token, -, -, hgrants⟩ := h
    have hfound := s.lookup_iff.mpr hgrants
    rw [hnone] at hfound
    exact absurd hfound (by simp)
  · split
    · exact ⟨fun h => absurd h (by simp), fun h => by simp at h⟩
    · rename_i scheme token
      split
      · rename_i hscheme
        refine ⟨fun h => absurd h (by simp), fun h => ?_⟩
        obtain ⟨scheme', token', hsame, hbearer, -⟩ := h
        obtain ⟨rfl, -⟩ := Prod.mk.inj (Option.some.inj hsame)
        exact absurd hbearer hscheme
      · rename_i hbearer
        have hlookup : s.apiKeys.lookup token = some identity ↔ s.Grants token identity :=
          s.lookup_iff
        constructor
        · intro h
          refine ⟨scheme, token, rfl, not_not.mp hbearer, hlookup.mp ?_⟩
          split at h
          · exact absurd h (by simp)
          · rename_i found hfound
            rw [hfound, Except.ok.inj h]
        · rintro ⟨scheme', token', hsame, -, hgrants⟩
          obtain ⟨rfl, rfl⟩ := Prod.mk.inj (Option.some.inj hsame)
          rw [hlookup.mpr hgrants]

/-! ### Runs behind the check -/

variable {m m' : MeteredCloud} {event : GuardedEvent k} {events : List (GuardedEvent k)}

def GuardedEvent.refused (event : GuardedEvent k) : Bool :=
  match event.action with
  | .refused _ _ => true
  | _ => false

/-- What an event is to the metered cloud. -/
def GuardedEvent.metered? (event : GuardedEvent k) : Option MeteredEvent :=
  match verifyToken event.settings.apiKeys event.credentials with
  | .ok identity => event.action.metered? identity
  | .error _ => none

/-- What a request is counted for, by nothing but its token. -/
def countedFor (k : ConfigEnv) (request : Option (String × String) × GuardedAction) :
    Option SourceKeyDailyUsage :=
  request.1.bind fun credentials =>
    (request.2.metered? (legacyIdentity k credentials.2)).bind MeteredEvent.charge?

/-- The request of an event, whatever the settings are. -/
def GuardedEvent.request (event : GuardedEvent k) : Option (String × String) × GuardedAction :=
  (event.credentials, event.action)

/-- The name of a key is not counted. -/
theorem metered_charge (action : GuardedAction) {identity identity' : ApiKeyIdentity}
    (h : identity.keyId = identity'.keyId) :
    (action.metered? identity).bind MeteredEvent.charge? =
      (action.metered? identity').bind MeteredEvent.charge? := by
  cases action with
  | served e event outcome =>
      cases outcome with
      | none => rfl
      | some outcome =>
          show some (usageValues e identity _ _) = some (usageValues e identity' _ _)
          unfold usageValues
          rw [h]
  | tracked e method operation statusCode =>
      show some (usageValues e identity _ _) = some (usageValues e identity' _ _)
      unfold usageValues
      rw [h]
  | refused statusCode detail => rfl

/-- **A step is a refusal that leaves everything as it is, or one of the metered cloud** under
the identity the settings give the token. -/
theorem guarded_step (hstep : (guardedCloud k).step m event m') :
    (event.refused = true ∧ (∀ identity, ¬ event.settings.LetsIn event.credentials identity) ∧
        event.metered? = none ∧ m' = m) ∨
      ∃ identity metered, event.refused = false ∧
        event.settings.LetsIn event.credentials identity ∧
        event.action.metered? identity = some metered ∧ event.metered? = some metered ∧
        meteredCloud.step m metered m' := by
  have hverify := verifyToken_ok event.settings event.credentials
  unfold GuardedEvent.metered? GuardedEvent.refused
  unfold guardedCloud at hstep
  dsimp only at hstep
  cases hverified : verifyToken event.settings.apiKeys event.credentials with
  | error failure =>
      rw [hverified] at hstep
      obtain ⟨haction, hsame⟩ := hstep
      refine Or.inl ⟨by rw [haction], fun identity hin => ?_, rfl, hsame⟩
      rw [← hverify, hverified] at hin
      exact absurd hin (by simp)
  | ok identity =>
      rw [hverified] at hstep
      obtain ⟨metered, hmetered, hstep⟩ := hstep
      refine Or.inr
        ⟨identity, metered, ?_, (hverify identity).mp hverified, hmetered, hmetered, hstep⟩
      cases haction : event.action with
      | refused statusCode detail =>
          rw [haction] at hmetered
          exact absurd hmetered (by simp [GuardedAction.metered?])
      | _ => rfl

/-- What is counted for an event is what its token is counted for. -/
theorem guarded_counted (hstep : (guardedCloud k).step m event m') :
    event.metered?.bind MeteredEvent.charge? = countedFor k event.request := by
  unfold countedFor GuardedEvent.request
  rcases guarded_step hstep with
    ⟨hrefused, -, hnone, -⟩ | ⟨identity, metered, -, hin, haction, hmetered, -⟩
  · rw [hnone]
    unfold GuardedEvent.refused at hrefused
    cases haction : event.action with
    | refused statusCode detail => cases event.credentials <;> rfl
    | served e served outcome => simp [haction] at hrefused
    | tracked e method operation statusCode => simp [haction] at hrefused
  · obtain ⟨scheme, token, hcredentials, -, hgrants⟩ := hin
    rw [hmetered, hcredentials, ← haction]
    exact metered_charge event.action hgrants.keyId

/-- A run behind the check is a run of the metered cloud, and refusals may be left out. -/
theorem guarded_metered (hrun : Run (guardedCloud k) {} events m) :
    Run meteredCloud {} (events.filterMap GuardedEvent.metered?) m ∧
      Run (guardedCloud k) {} (events.filter fun event => !event.refused) m := by
  induction hrun with
  | nil => exact ⟨Run.nil, Run.nil⟩
  | @snoc t u before event hrun hstep ih =>
      obtain ⟨hmetered, hkept⟩ := ih
      rw [List.filterMap_append, List.filter_append]
      rcases guarded_step hstep with
        ⟨hrefused, -, hnone, rfl⟩ | ⟨_, metered, hserved, -, -, hsome, hthere⟩
      · exact ⟨by simpa [hnone] using hmetered, by simpa [hrefused] using hkept⟩
      · have hlast : [event].filterMap GuardedEvent.metered? = [metered] := by simp [hsome]
        have hlet : [event].filter (fun event => !event.refused) = [event] := by simp [hserved]
        rw [hlast, hlet]
        exact ⟨hmetered.snoc hthere, hkept.snoc hstep⟩

/-- The log of the counts is read off the requests. -/
theorem guarded_charges (hrun : Run (guardedCloud k) {} events m) :
    charges (events.filterMap GuardedEvent.metered?) =
      (events.map GuardedEvent.request).filterMap (countedFor k) := by
  unfold charges
  rw [List.filterMap_filterMap, List.filterMap_map]
  refine List.filterMap_congr fun event hevent => ?_
  obtain ⟨_, _, _, _, -, -, hstep, -⟩ := hrun.step_of_mem hevent
  exact guarded_counted hstep

theorem guarded_usages (hrun : Run (guardedCloud k) {} events m) :
    m.keys.usages = Metering.metered usageScale
      ((events.map GuardedEvent.request).filterMap (countedFor k)) := by
  rw [usages_metered (guarded_metered hrun).1, guarded_charges hrun]

/-- A request is refused exactly when the settings have no key for its header. -/
theorem guarded_refused (hrun : Run (guardedCloud k) {} events m) :
    ∀ event ∈ events, event.refused = true ↔
      ∀ identity, ¬ event.settings.LetsIn event.credentials identity := by
  intro event hevent
  obtain ⟨_, _, _, _, -, -, hstep, -⟩ := hrun.step_of_mem hevent
  rcases guarded_step hstep with ⟨hrefused, hnone, -⟩ | ⟨identity, metered, hserved, hin, -⟩
  · exact ⟨fun _ => hnone, fun _ => hrefused⟩
  · exact ⟨fun h => absurd (hserved.symm.trans h) Bool.false_ne_true,
      fun hnone => absurd hin (hnone identity)⟩

/-- What an event registers is who it was let in as. -/
theorem metered_seen {action : GuardedAction} {identity : ApiKeyIdentity} {metered : MeteredEvent}
    {seen : ApiKeyIdentity × Time} (hmetered : action.metered? identity = some metered)
    (hseen : metered.seen? = some seen) : seen.1 = identity := by
  cases action with
  | served e event outcome =>
      obtain rfl := Option.some.inj hmetered
      obtain ⟨outcome, -, rfl⟩ := Option.map_eq_some_iff.mp hseen
      rfl
  | tracked e method operation statusCode =>
      obtain rfl := Option.some.inj hmetered
      obtain rfl := Option.some.inj hseen
      rfl
  | refused statusCode detail => exact absurd hmetered (by simp [GuardedAction.metered?])

/-- A row of the identities is an old one, or has the name of the key that was used. -/
theorem mem_upsertIdentity {e : Env} {identity : ApiKeyIdentity} {rows : List SourceKeyIdentity}
    {row : SourceKeyIdentity} (h : row ∈ upsertIdentity e identity rows) :
    row ∈ rows ∨ (row.keyId = identity.keyId ∧ row.keyName = identity.name) := by
  unfold upsertIdentity at h
  split at h
  · rcases List.mem_append.mp h with hold | hnew
    · exact Or.inl hold
    · obtain rfl := List.mem_singleton.mp hnew
      exact Or.inr ⟨rfl, rfl⟩
  · rename_i old hlookup
    rcases Tables.mem_writeBack_singleton h with ⟨hold, -⟩ | rfl
    · exact Or.inl hold
    · exact Or.inr ⟨(Tables.lookup_some hlookup).2, rfl⟩

/-- The name an identity stands under is one its token was let in by, by induction on the run. -/
theorem guarded_names (hrun : Run (guardedCloud k) {} events m) :
    ∀ row ∈ m.keys.identities, ∃ event ∈ events, ∃ identity,
      event.settings.LetsIn event.credentials identity ∧
        row.keyId = identity.keyId ∧ row.keyName = identity.name := by
  induction hrun with
  | nil => exact fun row hrow => absurd hrow List.not_mem_nil
  | @snoc t u before event hrun hstep ih =>
      have hbefore : ∀ row ∈ t.keys.identities, ∃ event' ∈ before ++ [event], ∃ identity,
          event'.settings.LetsIn event'.credentials identity ∧
            row.keyId = identity.keyId ∧ row.keyName = identity.name := by
        intro row hrow
        obtain ⟨event', hmem, hrest⟩ := ih row hrow
        exact ⟨event', List.mem_append_left _ hmem, hrest⟩
      rcases guarded_step hstep with ⟨-, -, -, rfl⟩ | ⟨identity, metered, -, hin, haction, -, hthere⟩
      · exact hbefore
      · rcases step_keys hthere with
          ⟨-, -, hkeys⟩ | ⟨e, identity', operation, counters, -, hseen, hkeys⟩
        · rw [hkeys]
          exact hbefore
        · obtain rfl : identity' = identity := metered_seen haction hseen
          rw [hkeys]
          intro row hrow
          rcases mem_upsertIdentity hrow with hold | hname
          · exact hbefore row hold
          · exact ⟨event, List.mem_append_right _ List.mem_cons_self, identity', hin, hname⟩

/-- **The check lets in the configured tokens, and the counts know the token only.**  In every
run behind the check, whatever the settings of the instances that serve it: a request is refused
exactly when its instance has no key for its header, and the run is the same without it; the rows
of the usage are those of the log of the requests with their tokens, so that settings which name
the keys otherwise leave the same rows; and an identity has a name that its token was let in by. -/
theorem tokens_told (hrun : Run (guardedCloud k) {} events m) :
    (∀ event ∈ events, event.refused = true ↔
      ∀ identity, ¬ event.settings.LetsIn event.credentials identity) ∧
    Run (guardedCloud k) {} (events.filter fun event => !event.refused) m ∧
    m.keys.usages = Metering.metered usageScale
      ((events.map GuardedEvent.request).filterMap (countedFor k)) ∧
    (∀ events' m', Run (guardedCloud k) {} events' m' →
      events'.map GuardedEvent.request = events.map GuardedEvent.request →
      m'.keys.usages = m.keys.usages) ∧
    ∀ row ∈ m.keys.identities, ∃ event ∈ events, ∃ identity,
      event.settings.LetsIn event.credentials identity ∧
        row.keyId = identity.keyId ∧ row.keyName = identity.name := by
  refine ⟨guarded_refused hrun, (guarded_metered hrun).2, guarded_usages hrun, ?_,
    guarded_names hrun⟩
  intro events' m' hrun' hsame
  rw [guarded_usages hrun', guarded_usages hrun, hsame]

/-- An environment of one token, with the digits of its SHA-256. -/
def oneTokenEnv : ConfigEnv where
  loads text :=
    if text = "\x7b\"bot\": \"t1\"\x7d" then some (.object [("bot", some "t1")]) else none
  repr text := "\x27" ++ text ++ "\x27"
  hexdigest token :=
    if token = "t1" then "628b49d96dcde97a430dd4f597705899e09a968f793491e4b704cae33a40dc02" else ""

def legacySettings : Settings oneTokenEnv where
  namedKeysRaw := ""
  legacyTokensRaw := "t1, "
  apiKeys := [("t1", { keyId := "key-628b49d96dcde97a", name := "key-628b49d96dcde97a" })]
  parsed := by decide +kernel

def namedSettings : Settings oneTokenEnv where
  namedKeysRaw := "\x7b\"bot\": \"t1\"\x7d"
  legacyTokensRaw := "t1"
  apiKeys := [("t1", { keyId := "key-628b49d96dcde97a", name := "bot" })]
  parsed := by decide +kernel

/-- The token is given a name between a success and a failure, and a stranger is refused. -/
def tokenEvents : List (GuardedEvent oneTokenEnv) :=
  let e : Env := { now := 739000 * dayMicros, dbNow := 739000 * dayMicros, uuid := fun _ => "" }
  [{ settings := legacySettings, credentials := some ("Bearer", "t1"),
     action := .tracked e "POST" "POST /v1/events" 200 },
   { settings := namedSettings, credentials := some ("bearer", "t1"),
     action := .tracked { e with dbNow := e.dbNow + 5 } "POST" "POST /v1/events" 409 },
   { settings := namedSettings, credentials := some ("Bearer", "t2"),
     action := .refused 401 "无效 Token" }]

theorem tokens_told_renamed :
    ∃ m, Run (guardedCloud oneTokenEnv) {} tokenEvents m ∧
      m.keys.usages =
        [{ dateStr := 739000, sourceKeyId := "key-628b49d96dcde97a", operation := "POST /v1/events",
           counters :=
             { authenticatedRequests := 2, successfulRequests := 1, successfulMutations := 1,
               failedRequests := 1 },
           updatedAt := 739000 * dayMicros + 5 }] ∧
      m.keys.identities.map (·.keyName) = ["bot"] := by
  have hlegacy : verifyToken legacySettings.apiKeys (some ("Bearer", "t1")) =
      .ok ⟨"key-628b49d96dcde97a", "key-628b49d96dcde97a"⟩ := by decide +kernel
  have hnamed : verifyToken namedSettings.apiKeys (some ("bearer", "t1")) =
      .ok ⟨"key-628b49d96dcde97a", "bot"⟩ := by decide +kernel
  have hstranger : verifyToken namedSettings.apiKeys (some ("Bearer", "t2")) =
      .error (401, "无效 Token") := by decide +kernel
  have hrun : Run (guardedCloud oneTokenEnv) {} tokenEvents _ :=
    Run.cons (by unfold guardedCloud; dsimp only; rw [hlegacy]; exact ⟨_, rfl, rfl⟩)
      (Run.cons (by unfold guardedCloud; dsimp only; rw [hnamed]; exact ⟨_, rfl, rfl⟩)
        (Run.cons (by unfold guardedCloud; dsimp only; rw [hstranger]; exact ⟨rfl, rfl⟩) Run.nil))
  obtain ⟨-, -, husages, -⟩ := tokens_told hrun
  refine ⟨_, hrun, ?_, ?_⟩
  · rw [husages]
    decide +kernel
  · decide +kernel

end RollPig
