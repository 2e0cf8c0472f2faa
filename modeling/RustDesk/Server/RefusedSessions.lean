import RustDesk.Server.PunchHole

/-!
# Sessions of refused requests

References: `rustdesk-server/src/rendezvous_server.rs` (`handle_punch_hole_request`) and
`src/redis_session.rs` (`check_and_register`).

`check_and_register` enters the session, and evicts others for it, before the permission for the device
and the peer itself are looked at, and before it knows that its own entry is the one to go. A request
that is refused after that has changed the user's sessions. `refused_unchanged_iff` says exactly when
none is left behind.
-/

namespace RustDesk.Server

open Net

/-- The request has the right licence, and a token of a user in good standing with a live
subscription: it comes to the sessions. -/
structure Admitted (cfg : HbbsConfig) (env : PunchEnv) (ph : PunchHoleRequest) (claims : Claims)
    (sub : Subscription) : Prop where
  licence : cfg.key = "" ∨ ph.licenceKey = cfg.key
  mustLogin : cfg.mustLogin = true
  secret : cfg.secret ≠ ""
  token : ph.token ≠ ""
  verified : verifyToken env ph.token = some claims
  status : ∃ status, env.userStatus claims.userId = some status ∧ status ≠ "banned"
  subscription : env.subscription claims.userId = some (some sub)
  live : env.utcNow < sub.expirationDatetime

variable {cfg : HbbsConfig} {env : PunchEnv} {ph : PunchHoleRequest} {claims : Claims}
  {sub : Subscription}

/-- What the checks up to the subscription let through. -/
theorem checkLogin_eq_ok_some_iff :
    checkLogin cfg env ph = .ok (some (claims, sub)) ↔ Admitted cfg env ph claims sub := by
  constructor
  · intro h
    unfold checkLogin at h
    by_cases hkey : cfg.key ≠ "" ∧ ph.licenceKey ≠ cfg.key
    · rw [if_pos hkey] at h
      cases h
    rw [if_neg hkey] at h
    by_cases hlogin : cfg.mustLogin = true
    swap
    · simp [hlogin] at h
    rw [if_pos hlogin] at h
    by_cases htoken : ph.token = ""
    · rw [if_pos htoken] at h
      cases h
    rw [if_neg htoken] at h
    by_cases hsecret : cfg.secret ≠ ""
    swap
    · simp [hsecret] at h
    rw [if_pos hsecret] at h
    cases hverify : verifyToken env ph.token with
    | none => simp [hverify] at h
    | some claims' =>
      cases hstatus : env.userStatus claims'.userId with
      | none => simp [hverify, hstatus] at h
      | some status =>
        by_cases hbanned : status = "banned"
        · simp [hverify, hstatus, hbanned] at h
        cases hsub : env.subscription claims'.userId with
        | none => simp [hverify, hstatus, hbanned, hsub] at h
        | some osub =>
          cases osub with
          | none => simp [hverify, hstatus, hbanned, hsub] at h
          | some sub' =>
            by_cases hexp : sub'.expirationDatetime ≤ env.utcNow
            · simp [hverify, hstatus, hbanned, hsub, hexp] at h
            · obtain ⟨rfl, rfl⟩ : claims' = claims ∧ sub' = sub := by
                simpa [hverify, hstatus, hbanned, hsub, hexp] using h
              exact ⟨by tauto, hlogin, hsecret, htoken, hverify, ⟨status, hstatus, hbanned⟩, hsub, not_le.mp hexp⟩
  · rintro ⟨hkey, hlogin, hsecret, htoken, hverify, ⟨status, hstatus, hbanned⟩, hsub, hlive⟩
    have hkey' : ¬ (cfg.key ≠ "" ∧ ph.licenceKey ≠ cfg.key) := by tauto
    simp [checkLogin, hkey', hlogin, hsecret, htoken, hverify, hstatus, hbanned, hsub, not_le.mpr hlive]

/-- The script leaves the set as it was: the device was there with this very time, within the limit, or
it is new, lowest, and the only one to go. -/
def Untouched (set : SortedSet String) (member : String) (score limit : ℤ) : Prop :=
  toLex (score, member) ∈ set.entries ∧ set.zcard ≤ limit ∨
    member ∉ set.members ∧
      (limit = set.zcard ∧ set.rank member score = 0 ∨ set.zcard = 0 ∧ limit ≤ 0)

/-- The device stays: with it the limit is kept, or enough others are older to be evicted. -/
def Kept (set : SortedSet String) (member : String) (score limit : ℤ) : Prop :=
  (set.others member).length + 1 ≤ limit + set.rank member score

theorem sessionScript_fst_iff {set : SortedSet String} {member : String} {score limit : ℤ} :
    (sessionScript set member score limit).1 = true ↔ Kept set member score limit := by
  have hcard := set.zcard_zadd member score
  unfold sessionScript Kept
  by_cases hle : ((set.zadd member score).zcard : ℤ) ≤ limit
  · simp only [if_pos hle, true_iff]
    omega
  · simp only [if_neg hle, decide_eq_true_eq, SortedSet.mem_zpopmin_zadd, not_lt]
    omega

theorem sessionScript_snd (set : SortedSet String) (member : String) (score limit : ℤ) :
    (sessionScript set member score limit).2 =
      ((set.zadd member score).zpopmin ((set.zadd member score).zcard - limit).toNat).2 := by
  unfold sessionScript
  by_cases hle : ((set.zadd member score).zcard : ℤ) ≤ limit
  · have hzero : (((set.zadd member score).zcard : ℤ) - limit).toNat = 0 := by omega
    rw [if_pos hle, hzero]
    exact SortedSet.ext rfl
  · rw [if_neg hle]

theorem sessionScript_snd_iff {set : SortedSet String} {member : String} {score limit : ℤ} :
    (sessionScript set member score limit).2 = set ↔ Untouched set member score limit := by
  have hcard := set.zcard_zadd member score
  rw [sessionScript_snd, SortedSet.zpopmin_zadd_eq_iff, Untouched]
  by_cases hmem : member ∈ set.members
  · have hothers := SortedSet.length_others_of_mem hmem
    constructor
    · rintro (⟨hzero, hentry⟩ | ⟨hnot, -⟩)
      · exact .inl ⟨hentry, by omega⟩
      · exact absurd hmem hnot
    · rintro (⟨hentry, hle⟩ | ⟨hnot, -⟩)
      · exact .inl ⟨by omega, hentry⟩
      · exact absurd hmem hnot
  · have hothers := SortedSet.others_of_notMem hmem
    have hlength : (set.others member).length = set.zcard := by rw [hothers, SortedSet.zcard]
    constructor
    · rintro (⟨-, hentry⟩ | ⟨-, ⟨hone, hrank⟩ | ⟨hzero, hpos⟩⟩)
      · exact absurd (List.mem_map.mpr ⟨_, hentry, rfl⟩) hmem
      · exact .inr ⟨hmem, .inl ⟨by omega, hrank⟩⟩
      · exact .inr ⟨hmem, .inr ⟨hzero, by omega⟩⟩
    · rintro (⟨hentry, -⟩ | ⟨-, ⟨hlimit, hrank⟩ | ⟨hzero, hlimit⟩⟩)
      · exact absurd (List.mem_map.mpr ⟨_, hentry, rfl⟩) hmem
      · exact .inr ⟨hmem, .inl ⟨by omega, hrank⟩⟩
      · exact .inr ⟨hmem, .inr ⟨hzero, by omega⟩⟩

/-! ## The request -/

/-- The target is known, and registered within the timeout. -/
def Online (env : PunchEnv) (s : Registry) (id : String) : Prop :=
  ∃ peer, (s.get env.now env.getPeerOk id).1 = some peer ∧ peer.elapsed env.now < regTimeout

/-- A request that came to the sessions leaves none behind: Redis did not run the script, or it
left the user's set as it was, or the device stays, has the permission and the target is online, so that
the request is forwarded. -/
inductive LeavesNone (env : PunchEnv) (s : Registry) (sessions : Sessions) (ph : PunchHoleRequest)
    (claims : Claims) (sub : Subscription) : Prop
  | unreachable (h : env.redis = .unreachable)
  | untouched (h : Untouched (sessions claims.userId) claims.uuid env.timestampMillis
      (asI32 sub.concurrentLimit))
  | forwarded (hkept : env.redis = .lostReply ∨ Kept (sessions claims.userId) claims.uuid
      env.timestampMillis (asI32 sub.concurrentLimit))
      (hpermission : env.permission claims.userId ph.id = some true) (honline : Online env s ph.id)

/-- The last part of a request gives an address exactly if the target is online. -/
theorem punch_some_iff {s : Registry} {addr : SocketAddr} {ws : Bool} :
    (punch cfg env s addr ph ws).1.2 ≠ none ↔ Online env s ph.id := by
  unfold punch Online
  generalize s.get env.now env.getPeerOk ph.id = r
  obtain ⟨peer, s'⟩ := r
  cases peer with
  | none => simp
  | some peer =>
    by_cases helapsed : peer.elapsed env.now ≥ regTimeout
    · simp [helapsed, not_lt.mpr helapsed]
    · simp [helapsed, not_le.mp helapsed]

/-- The sessions after a request that came to them. -/
theorem checkSession_snd_iff {sessions : Sessions} {id : String} :
    (checkSession env sessions claims sub id).2 = sessions ↔
      env.redis = .unreachable ∨ Untouched (sessions claims.userId) claims.uuid env.timestampMillis
        (asI32 sub.concurrentLimit) := by
  have hsnd : (checkSession env sessions claims sub id).2 =
      (checkAndRegister env sessions claims.userId claims.uuid (asI32 sub.concurrentLimit)).2 := by
    unfold checkSession
    generalize checkAndRegister env sessions claims.userId claims.uuid (asI32 sub.concurrentLimit) = r
    obtain ⟨ok, sessions'⟩ := r
    cases ok
    · rfl
    · cases hperm : env.permission claims.userId id with
      | none => simp
      | some b => cases b <;> simp
  rw [hsnd]
  cases hredis : env.redis with
  | unreachable => simp [checkAndRegister, hredis]
  | answered | lostReply =>
    simp only [checkAndRegister, hredis, Function.update_eq_self_iff, sessionScript_snd_iff, reduceCtorEq, false_or]

/-- The session is granted. -/
theorem checkSession_fst_iff {sessions : Sessions} {id : String} :
    (checkSession env sessions claims sub id).1 = none ↔
      (env.redis = .unreachable ∨ env.redis = .lostReply ∨ Kept (sessions claims.userId) claims.uuid
        env.timestampMillis (asI32 sub.concurrentLimit)) ∧
        env.permission claims.userId id = some true := by
  have hkept : (checkAndRegister env sessions claims.userId claims.uuid
      (asI32 sub.concurrentLimit)).1 = true ↔ env.redis = .unreachable ∨ env.redis = .lostReply ∨
        Kept (sessions claims.userId) claims.uuid env.timestampMillis (asI32 sub.concurrentLimit) := by
    cases hredis : env.redis <;> simp [checkAndRegister, hredis, sessionScript_fst_iff]
  rw [← hkept]
  unfold checkSession
  generalize checkAndRegister env sessions claims.userId claims.uuid (asI32 sub.concurrentLimit) = r
  obtain ⟨ok, sessions'⟩ := r
  cases ok
  · simp
  · cases hperm : env.permission claims.userId id with
    | none => simp
    | some b => cases b <;> simp

variable {s : Registry} {sessions : Sessions} {addr : SocketAddr} {ws : Bool}

/-- A request that does not come to the sessions leaves them alone. -/
theorem sessions_of_not_admitted (h : ∀ claims sub, ¬ Admitted cfg env ph claims sub) :
    (handlePunchHoleRequest cfg env s sessions addr ph ws).2.2 = sessions := by
  cases hlogin : checkLogin cfg env ph with
  | error msg => simp [handlePunchHoleRequest, hlogin]
  | ok admitted =>
    cases admitted with
    | none => simp [handlePunchHoleRequest, hlogin]
    | some admitted =>
      obtain ⟨claims, sub⟩ := admitted
      exact absurd (checkLogin_eq_ok_some_iff.mp hlogin) (h claims sub)

/-- A request that comes to the sessions: what it makes of them, and when it is forwarded. -/
theorem request_of_admitted (h : Admitted cfg env ph claims sub) (s : Registry) (sessions : Sessions)
    (addr : SocketAddr) (ws : Bool) :
    (handlePunchHoleRequest cfg env s sessions addr ph ws).2.2 = (checkSession env sessions claims sub ph.id).2 ∧
      ((handlePunchHoleRequest cfg env s sessions addr ph ws).1.2 ≠ none ↔
        (checkSession env sessions claims sub ph.id).1 = none ∧ Online env s ph.id) := by
  have hlogin := checkLogin_eq_ok_some_iff.mpr h
  have hpunch : (punch cfg env s addr ph ws).1.2 ≠ none ↔ Online env s ph.id := punch_some_iff
  simp only [handlePunchHoleRequest, hlogin]
  generalize checkSession env sessions claims sub ph.id = r
  obtain ⟨refusal, sessions'⟩ := r
  cases refusal with
  | none => simpa using hpunch
  | some msg => simp

/-- **A refused request leaves no session behind** exactly if it did not come to the sessions, or Redis
did not run the script, or the script happened to leave the user's set as it was. (A request that is
forwarded is not refused.) -/
theorem refused_unchanged_iff :
    ((handlePunchHoleRequest cfg env s sessions addr ph ws).1.2 = none →
        (handlePunchHoleRequest cfg env s sessions addr ph ws).2.2 = sessions) ↔
      ∀ claims sub, Admitted cfg env ph claims sub → LeavesNone env s sessions ph claims sub := by
  constructor
  · intro hunchanged claims sub hadmitted
    obtain ⟨hsnd, hfst⟩ := request_of_admitted hadmitted s sessions addr ws
    by_cases hforward : (handlePunchHoleRequest cfg env s sessions addr ph ws).1.2 = none
    · have hsame := hsnd.symm.trans (hunchanged hforward)
      rcases checkSession_snd_iff.mp hsame with hredis | huntouched
      · exact .unreachable hredis
      · exact .untouched huntouched
    · obtain ⟨hsession, honline⟩ := hfst.mp hforward
      obtain ⟨hredis | hkept, hpermission⟩ := checkSession_fst_iff.mp hsession
      · exact .unreachable hredis
      · exact .forwarded hkept hpermission honline
  · intro hleaves hrefused
    by_cases hadmitted : ∃ claims sub, Admitted cfg env ph claims sub
    · obtain ⟨claims, sub, hadmitted⟩ := hadmitted
      obtain ⟨hsnd, hfst⟩ := request_of_admitted hadmitted s sessions addr ws
      rw [hsnd]
      cases hleaves claims sub hadmitted with
      | unreachable hredis => exact checkSession_snd_iff.mpr (.inl hredis)
      | untouched huntouched => exact checkSession_snd_iff.mpr (.inr huntouched)
      | forwarded hkept hpermission honline =>
        have hsession := checkSession_fst_iff.mpr ⟨.inr hkept, hpermission⟩
        exact absurd hrefused (hfst.mpr ⟨hsession, honline⟩)
    · exact sessions_of_not_admitted fun claims sub h => hadmitted ⟨claims, sub, h⟩

/-! ## Two requests -/

/-- A server that asks for a login, and what it is told of the one user there is. -/
def exampleConfig : HbbsConfig where
  key := "key"
  mustLogin := true
  secret := "secret"
  mask := none
  localIp := ""
  sk := some []
  sign := fun m _ => m
  openBox := fun _ _ => none
  ipText := fun _ => "10.0.0.1"
  version := ""
  softwareUrl := ""

def exampleEnv (permission : Bool) : PunchEnv where
  decode := fun token => if token = "token" then some ⟨1, "viewer", 2000⟩ else none
  timestamp := 1000
  userStatus := fun _ => some "active"
  subscription := fun _ => some (some ⟨2000, 1⟩)
  utcNow := 1000
  redis := .answered
  timestampMillis := 1_000_000
  permission := fun _ _ => some permission
  now := 10_000_000
  getPeerOk := true
  alwaysUseRelay := false
  relayServer := fun _ _ => ""
  tm := 0

def examplePunch : PunchHoleRequest := ⟨"123456789", .known .unknownNat, "key", "token", "", false⟩

/-- The user's session on another device. -/
def exampleSessions : Sessions := fun _ => SortedSet.empty.zadd "older" 1

/-- A request with a wrong licence does not come to the sessions. -/
theorem refused_unchanged_example :
    (handlePunchHoleRequest exampleConfig (exampleEnv true) ⟨fun _ => none, .empty⟩ exampleSessions
      ⟨.v4 #v[10, 0, 0, 1], 40000⟩ { examplePunch with licenceKey := "" } false).2.2 = exampleSessions :=
  refused_unchanged_iff.mpr
    (fun claims sub h => by
      rcases h.licence with h | h
      · exact absurd h (by decide)
      · exact absurd h (by decide))
    rfl

/-- A user without the permission for the device is refused, and the session on the other device is
gone for it. -/
theorem refused_evicts :
    let r := handlePunchHoleRequest exampleConfig (exampleEnv false) ⟨fun _ => none, .empty⟩
      exampleSessions ⟨.v4 #v[10, 0, 0, 1], 40000⟩ examplePunch false
    r.1 = (refuse "拒绝访问此设备", none) ∧ (exampleSessions 1).members = ["older"] ∧
      (r.2.2 1).members = ["viewer"] := by
  exact ⟨rfl, rfl, rfl⟩

end RustDesk.Server
