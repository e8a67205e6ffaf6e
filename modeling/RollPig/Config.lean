/-
The keys of the callers, `config.py`, and their check, `auth.py`.

The keys are read once at the start, from a JSON object of names and tokens and from a list of
tokens without names, which older deployments have.  A token is kept as it is only to be
compared; everything else sees the identity it stands for, whose id is a fingerprint of the
token, so that a key may be renamed.
-/
import RollPig.Metered

namespace RollPig

/-- What `json.loads` makes of a text: an object with its members, of which a value that is no
text is `none`, or something else. -/
inductive LoadedKeys
  | object (members : List (String × Option String))
  | other

/-- What the standard library answers: `json.loads`, with `none` for a JSONDecodeError, `repr` of
a text, and the digits of its SHA-256. -/
structure ConfigEnv where
  loads : String → Option LoadedKeys
  repr : String → String
  hexdigest : String → String

/-- `str.isspace` of one character. -/
def isSpace (c : Char) : Bool :=
  let n := c.toNat
  (9 ≤ n && n ≤ 13) || (28 ≤ n && n ≤ 32) || n = 0x85 || n = 0xa0 || n = 0x1680 ||
    (0x2000 ≤ n && n ≤ 0x200a) || n = 0x2028 || n = 0x2029 || n = 0x202f || n = 0x205f || n = 0x3000

/-- `str.strip`. -/
def strip (text : String) : String :=
  String.ofList ((text.toList.dropWhile isSpace).reverse.dropWhile isSpace).reverse

/-- `text.split(",")`. -/
def splitCommas (text : String) : List String :=
  (text.toList.splitOn ',').map String.ofList

def keyNameMaxLength : Nat := 64

/-- `_token_key_id`. -/
def tokenKeyId (k : ConfigEnv) (token : String) : String :=
  "key-" ++ String.ofList ((k.hexdigest token).toList.take 16)

/-- `_normalize_key_name`. -/
def normalizeKeyName (value : String) : Except String String :=
  let name := strip value
  if name = "" then .error "ROLLPIG_CLOUD_KEYS_JSON 中的 Key 名称不能为空"
  else if keyNameMaxLength < name.length then
    .error "ROLLPIG_CLOUD_KEYS_JSON 中的 Key 名称不能超过 64 个字符"
  else if name.toList.any fun c => c.toNat < 32 then
    .error "ROLLPIG_CLOUD_KEYS_JSON 中的 Key 名称不能包含控制字符"
  else .ok name

/-- The loop over the members of the object. -/
def addNamedKey (k : ConfigEnv) (identities : List (String × ApiKeyIdentity))
    (member : String × Option String) : Except String (List (String × ApiKeyIdentity)) :=
  match normalizeKeyName member.1 with
  | .error message => .error message
  | .ok name =>
      let token := strip (member.2.getD "")
      if token = "" then
        .error ("ROLLPIG_CLOUD_KEYS_JSON 中 " ++ k.repr name ++ " 对应的 Token 不能为空")
      else if token ∈ identities.map (·.1) then
        .error "ROLLPIG_CLOUD_KEYS_JSON 不能为同一个 Token 配置多个名称"
      else .ok (identities ++ [(token, { keyId := tokenKeyId k token, name })])

/-- The loop over the tokens without names; a token that has a name keeps it. -/
def addLegacyToken (k : ConfigEnv) (identities : List (String × ApiKeyIdentity))
    (rawToken : String) : List (String × ApiKeyIdentity) :=
  let token := strip rawToken
  if token ≠ "" ∧ token ∉ identities.map (·.1) then
    identities ++ [(token, { keyId := tokenKeyId k token, name := tokenKeyId k token })]
  else identities

/-- The members of `ROLLPIG_CLOUD_KEYS_JSON`. -/
def loadNamedKeys (k : ConfigEnv) (namedKeysRaw : String) :
    Except String (List (String × Option String)) :=
  if strip namedKeysRaw = "" then .ok []
  else match k.loads namedKeysRaw with
    | none => .error "ROLLPIG_CLOUD_KEYS_JSON 必须是合法 JSON 对象"
    | some .other =>
        .error "ROLLPIG_CLOUD_KEYS_JSON 必须是使用 \x7b名称: Token\x7d 格式的 JSON 对象"
    | some (.object members) => .ok members

/-- `parse_api_keys`. -/
def parseApiKeys (k : ConfigEnv) (namedKeysRaw legacyTokensRaw : String) :
    Except String (List (String × ApiKeyIdentity)) :=
  match loadNamedKeys k namedKeysRaw with
  | .error message => .error message
  | .ok members =>
      match members.foldlM (addNamedKey k) [] with
      | .error message => .error message
      | .ok named => .ok ((splitCommas legacyTokensRaw).foldl (addLegacyToken k) named)

/-- The settings an instance runs with; without them it does not start. -/
structure Settings (k : ConfigEnv) where
  namedKeysRaw : String
  legacyTokensRaw : String
  apiKeys : List (String × ApiKeyIdentity)
  parsed : parseApiKeys k namedKeysRaw legacyTokensRaw = .ok apiKeys

/-- `verify_token`, given the scheme and the token of the header; an error is a status and a
text. -/
def verifyToken (apiKeys : List (String × ApiKeyIdentity))
    (credentials : Option (String × String)) : Except (Nat × String) ApiKeyIdentity :=
  if apiKeys = [] then .error (500, "服务端未配置 Token")
  else match credentials with
    | none => .error (401, "缺少 Bearer Token")
    | some (scheme, token) =>
        if scheme.toLower ≠ "bearer" then .error (401, "缺少 Bearer Token")
        else match apiKeys.lookup token with
          | none => .error (401, "无效 Token")
          | some identity => .ok identity

/-! ### The system -/

/-- A request to an instance that runs with these settings: a transaction of its handler, the
middleware's count of it, or its refusal. -/
inductive GuardedAction
  | served (e : Env) (event : CloudEvent) (outcome : Option MutationOutcome)
  | tracked (e : Env) (method operation : String) (statusCode : Nat)
  | refused (statusCode : Nat) (detail : String)

structure GuardedEvent (k : ConfigEnv) where
  settings : Settings k
  credentials : Option (String × String)
  action : GuardedAction

/-- What the cloud sees of a request under the identity it was let in as. -/
def GuardedAction.metered? (identity : ApiKeyIdentity) : GuardedAction → Option MeteredEvent
  | .served e event outcome => some (.served e identity event outcome)
  | .tracked e method operation statusCode => some (.tracked e identity method operation statusCode)
  | .refused _ _ => none

/-- The metered cloud behind the check of the keys.  Any number of instances serve it, each with
its own settings, and a restart may change them. -/
def guardedCloud (k : ConfigEnv) : Transition.System MeteredCloud (GuardedEvent k) where
  init m := m = {}
  step m event m' :=
    match verifyToken event.settings.apiKeys event.credentials with
    | .error (statusCode, detail) => event.action = .refused statusCode detail ∧ m' = m
    | .ok identity =>
        ∃ metered, event.action.metered? identity = some metered ∧ meteredCloud.step m metered m'

end RollPig
