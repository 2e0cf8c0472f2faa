import RustDesk.Api.Oauth

/-!
# Bindings of accounts to identities

References: `rustdesk-api/service/user.go` (`RegisterByOauth`), `http/controller/admin/oauth.go` (`BindConfirm`,
`Unbind`), `http/controller/api/ouath.go` (`OauthCallback`) and `service/oauth.go` (`UserThirdInfo`,
`BindOauthUser`, `UnBindThird`).

Four steps insert a binding, and the table has no unique index. What is checked is checked steps before, and
not everywhere: `BindConfirm` checks nothing, not even that there is an identity in the item, and
`RegisterByOauth` binds whoever has the e-mail address that the provider reports. `bindings_sound_iff` says
what the insertions must find.
-/

namespace RustDesk.Api

/-- The row that a step inserts. -/
def OauthPhase.inserts (phase : OauthPhase) (s : OauthShared) : OauthMove → Option UserThird
  | .bindConfirm (.create true) =>
    match phase with
    | .bindConfirmRead code userId oauthUser op => some ⟨userId, op, oauthUser.openId, code, none⟩
    | _ => none
  | .callback (.bindCreate true) =>
    match phase with
    | .bindChecked code op userId oauthUser => some ⟨userId, op, oauthUser.openId, code, none⟩
    | _ => none
  | .register (.link true) =>
    match phase with
    | .registerLink code op oauthUser u new =>
      let trusted := oauthUser.verifiedEmail && s.ownsAlone u.1 oauthUser.email
      some ⟨u.1, op, oauthUser.openId, code, if new then none else some trusted⟩
    | _ => none
  | .register (.create _ .bound) =>
    match phase with
    | .registerNew code op oauthUser => some ⟨s.users.next, op, oauthUser.openId, code, none⟩
    | _ => none
  | _ => none

/-- The provider returned an identity with this id for the code. -/
def WasReturned (log : List OauthFact) (code openId : String) : Prop :=
  ∃ oauthUser, .returned code oauthUser ∈ log ∧ oauthUser.openId = openId

/-- An identity has one user, a user one identity at a provider. An identity was returned for the code
through which it was bound. The login action binds it to an account that was there before if the provider
has verified the e-mail address, which no other account has. -/
structure BindingsSound (s : OauthShared) : Prop where
  user : ∀ r ∈ s.thirds.rows, ∀ r' ∈ s.thirds.rows, r.2.op = r'.2.op → r.2.openId = r'.2.openId →
    r.2.userId = r'.2.userId
  identity : ∀ r ∈ s.thirds.rows, ∀ r' ∈ s.thirds.rows, r.2.userId = r'.2.userId → r.2.op = r'.2.op →
    r.2.openId = r'.2.openId
  returned : ∀ r ∈ s.thirds.rows, r.2.openId ≠ "" ∧ WasReturned s.log r.2.code r.2.openId
  linked : ∀ r ∈ s.thirds.rows, r.2.linked ≠ some false

/-- What an insertion must find: an identity, which no other user is bound to, a user who is bound to no other
one at the provider, and, where it links an account, the e-mail address verified and of that account
alone. -/
structure Fits (s : OauthShared) (row : UserThird) : Prop where
  openId : row.openId ≠ ""
  user : ∀ r ∈ s.thirds.rows, r.2.op = row.op → r.2.openId = row.openId → r.2.userId = row.userId
  identity : ∀ r ∈ s.thirds.rows, r.2.userId = row.userId → r.2.op = row.op → r.2.openId = row.openId
  linked : row.linked ≠ some false

/-! ## Where identities come from -/

/-- The identity in an item was returned for its code. -/
def OauthShared.Traced (s : OauthShared) : Prop :=
  ∀ code v, s.items code = some v → v.openId ≠ "" → WasReturned s.log code v.openId

/-- So was the one that a request carries, unless it read an empty one. -/
def OauthPhase.Traced (log : List OauthFact) : OauthPhase → Prop
  | .bindConfirmRead code _ oauthUser _ => oauthUser.openId ≠ "" → WasReturned log code oauthUser.openId
  | .bindReturned code _ _ oauthUser | .bindChecked code _ _ oauthUser | .loginReturned code _ oauthUser
  | .loginBound code _ oauthUser _ | .loginUnknown code _ oauthUser | .registerWaiting code _ oauthUser
  | .registerLocked code _ oauthUser | .registerUnbound code _ oauthUser
  | .registerLink code _ oauthUser _ _ | .registerNew code _ oauthUser =>
    WasReturned log code oauthUser.openId
  | _ => True

section Request

variable {s s' : OauthShared} {phase phase' : OauthPhase} {next : OauthPhase × OauthShared}
  {log : List OauthFact} {code openId : String} {userId : ℕ}

theorem WasReturned.append (new : List OauthFact) (h : WasReturned log code openId) :
    WasReturned (new ++ log) code openId := by
  obtain ⟨oauthUser, hmem, hopenId⟩ := h
  exact ⟨oauthUser, List.mem_append_right _ hmem, hopenId⟩

theorem OauthPhase.Traced.append (new : List OauthFact) (h : phase.Traced log) : phase.Traced (new ++ log) := by
  cases phase with
  | bindConfirmRead => exact fun hne => (h hne).append new
  | bindReturned | bindChecked | loginReturned | loginBound | loginUnknown | registerWaiting
  | registerLocked | registerUnbound | registerLink | registerNew => exact WasReturned.append new h
  | _ => trivial

/-- What is inserted was returned. -/
theorem OauthPhase.Traced.inserted (h : phase.Traced s.log) {m : OauthMove} {row : UserThird}
    (hrow : phase.inserts s m = some row) (hne : row.openId ≠ "") :
    WasReturned s.log row.code row.openId := by
  unfold OauthPhase.inserts at hrow
  split at hrow
  · split at hrow
    · cases hrow
      exact h hne
    · cases hrow
  · split at hrow
    · cases hrow
      exact h
    · cases hrow
  · split at hrow
    · cases hrow
      exact h
    · cases hrow
  · split at hrow
    · cases hrow
      exact h
    · cases hrow
  · cases hrow

/-- A step inserts this row or none, and identities come from where they must. -/
structure Binds (s : OauthShared) (row : Option UserThird) (next : OauthPhase × OauthShared) : Prop where
  thirds : next.2.thirds = match row with
    | some row => s.thirds.insert row
    | none => s.thirds
  log : ∃ new, next.2.log = new ++ s.log
  items : next.2.Traced
  phase : next.1.Traced next.2.log

/-- Neither the items nor the history. -/
theorem Binds.of_eq (hs : s.Traced) {row : Option UserThird} (hphase : phase'.Traced s.log)
    (hlog : s'.log = s.log) (hitems : s'.items = s.items)
    (hthirds : s'.thirds = match row with
      | some row => s.thirds.insert row
      | none => s.thirds) : Binds s row (phase', s') := by
  refine ⟨hthirds, ⟨[], hlog⟩, ?_, hlog ▸ hphase⟩
  show s'.Traced
  rw [OauthShared.Traced, hlog, hitems]
  exact hs

theorem Binds.same (hs : s.Traced) (hphase : phase'.Traced s.log) : Binds s none (phase', s) :=
  .of_eq hs hphase rfl rfl rfl

/-- One more fact. -/
theorem Binds.note (fact : OauthFact) {row : Option UserThird} (h : Binds s row (phase', s')) :
    Binds s row (phase', s'.note fact) := by
  obtain ⟨new, hnew⟩ := h.log
  refine ⟨h.thirds, ⟨fact :: new, congrArg (fact :: ·) hnew⟩, fun code v hv hne => ?_, ?_⟩
  · exact (h.items code v hv hne).append [fact]
  · exact h.phase.append [fact]

/-- A write to an item that leaves its identity, or fills in one that was returned. -/
theorem OauthShared.Traced.writeItem (hs : s.Traced) {f : OauthCacheItem → OauthCacheItem}
    (hf : ∀ v, (f v).openId = v.openId ∨ WasReturned s.log code (f v).openId) :
    (s.writeItem code f).Traced := by
  intro code' v' hv' hne
  by_cases hcode : code' = code
  · subst hcode
    obtain ⟨v, hv, rfl⟩ : ∃ v, s.items code' = some v ∧ f v = v' := by
      simpa [OauthShared.writeItem, Option.map_eq_some_iff] using hv'
    rcases hf v with hsame | hreturned
    · rw [hsame] at hne ⊢
      exact hs code' v hv hne
    · exact hreturned
  · exact hs code' v' (by simpa [OauthShared.writeItem, hcode] using hv') hne

theorem Binds.writeItem (hs : s.Traced) {f : OauthCacheItem → OauthCacheItem} (hphase : phase'.Traced s.log)
    (hf : ∀ v, (f v).openId = v.openId ∨ WasReturned s.log code (f v).openId) :
    Binds s none (phase', s.writeItem code f) :=
  ⟨rfl, ⟨[], rfl⟩, hs.writeItem hf, hphase⟩

theorem Binds.begin (hs : s.Traced) {item : OauthCacheItem} (hitem : item.openId = "") :
    Binds s none (.done, s.begin code item) := by
  refine ⟨rfl, ⟨[.begun code item.action], rfl⟩, fun code' v hv hne => ?_, trivial⟩
  by_cases hcode : code' = code
  · subst hcode
    obtain rfl : v = item := by simpa [OauthShared.begin, eq_comm] using hv
    exact absurd hitem hne
  · exact (hs code' v (by simpa [OauthShared.begin, hcode] using hv) hne).append [_]

theorem Binds.setFirstLogin (hs : s.Traced) (hphase : phase'.Traced s.log)
    (u : Option (ℕ × Account)) (now : ℤ) : Binds s none (phase', s.setFirstLoginIfNeeded u now) := by
  unfold OauthShared.setFirstLoginIfNeeded
  split
  · split
    · exact .of_eq hs hphase rfl rfl rfl
    · exact .same hs hphase
  · exact .same hs hphase

/-! ## One step of a request -/

section

variable (hs : s.Traced)
include hs

theorem oidcAuth_binds {op : String} (h : phase.oidcAuth s code op = some next) : Binds s none next := by
  unfold OauthPhase.oidcAuth at h
  split at h
  · cases h
    exact .begin hs rfl
  · cases h

theorem oidcAuthQueryPre_binds {m : QueryMove}
    (h : phase.oidcAuthQueryPre s m = some next) : Binds s none next := by
  cases m with (simp only [OauthPhase.oidcAuthQueryPre] at h; split at h; on_goal 2 => cases h)
  | load code =>
    cases h
    split <;> exact .same hs trivial
  | check =>
    obtain ⟨v, -, rfl⟩ := Option.map_eq_some_iff.mp h
    split <;> exact .same hs trivial
  | readUserId =>
    obtain ⟨v, -, rfl⟩ := Option.map_eq_some_iff.mp h
    exact .same hs trivial
  | infoById ok =>
    cases h
    exact .same hs trivial
  | setFirstLogin now =>
    next code u =>
    cases h
    have hmarked : (OauthPhase.queryMarked code u).Traced s.log := trivial
    exact .setFirstLogin hs hmarked u now
  | delete =>
    next code u =>
    cases h
    have hdeleted : Binds s none (.queryTaken code u, s.setCached code false) := .of_eq hs trivial rfl rfl rfl
    exact hdeleted.note (.taken code)
  | login =>
    cases h
    have hdone : Binds s none (.done, s) := .same hs trivial
    exact hdone.note _

theorem toBind_binds {m : ToBindMove} (h : phase.toBind s m = some next) : Binds s none next := by
  cases m with (simp only [OauthPhase.toBind] at h; split at h; on_goal 2 => cases h)
  | check userId op ok => split at h <;> cases h <;> exact .same hs trivial
  | store code =>
    split at h
    · cases h
      exact .begin hs rfl
    · cases h

theorem confirm_binds {m : ConfirmMove} (h : phase.confirm s m = some next) : Binds s none next := by
  cases m with (simp only [OauthPhase.confirm] at h; split at h; on_goal 2 => cases h)
  | load code userId =>
    cases h
    split <;> exact .same hs trivial
  | write =>
    next code userId =>
    cases h
    have hwritten : Binds s none (.confirmWritten code, s.writeUserId code userId) :=
      .writeItem hs trivial fun _ => .inl rfl
    exact hwritten.note (.confirmed code userId)
  | store =>
    cases h
    exact .of_eq hs trivial rfl rfl rfl

theorem bindConfirm_binds {m : BindConfirmMove}
    (h : phase.bindConfirm s m = some next) : Binds s (phase.inserts s (.bindConfirm m)) next := by
  cases m with (simp only [OauthPhase.bindConfirm] at h; split at h; on_goal 2 => cases h)
  | load code userId =>
    cases h
    split <;> exact .same hs trivial
  | read =>
    next code userId =>
    obtain ⟨v, hv, rfl⟩ := Option.map_eq_some_iff.mp h
    exact .same hs (hs code v hv)
  | create ok =>
    cases ok with
    | true =>
      cases h
      exact .of_eq hs trivial rfl rfl rfl
    | false =>
      cases h
      exact .same hs trivial
  | write =>
    next code userId =>
    cases h
    have hwritten : Binds s none (.bindConfirmWritten code, s.writeUserId code userId) :=
      .writeItem hs trivial fun _ => .inl rfl
    exact hwritten.note (.confirmed code userId)
  | store =>
    cases h
    exact .of_eq hs trivial rfl rfl rfl

section

variable (hphase : phase.Traced s.log)
include hphase

theorem oauthCallback_binds {m : CallbackMove}
    (h : phase.oauthCallback s m = some next) : Binds s (phase.inserts s (.callback m)) next := by
  cases m with (simp only [OauthPhase.oauthCallback] at h; split at h; on_goal 2 => cases h)
  | load code =>
    split at h
    · obtain ⟨v, -, rfl⟩ := Option.map_eq_some_iff.mp h
      exact .same hs trivial
    · cases h
      exact .same hs trivial
  | callback answer =>
    next code action op =>
    split at h
    · cases h
      exact .same hs trivial
    · next oauthUser =>
      obtain ⟨v, -, rfl⟩ := Option.map_eq_some_iff.mp h
      -- the identity is noted, whoever carries it
      have hnoted : Binds s none (.done, s.note (.returned code oauthUser)) := by
        have hdone : Binds s none (.done, s) := .same hs trivial
        exact hdone.note _
      have hreturned : WasReturned (s.note (.returned code oauthUser)).log code oauthUser.openId :=
        ⟨oauthUser, List.mem_cons_self, rfl⟩
      refine ⟨hnoted.thirds, hnoted.log, hnoted.items, ?_⟩
      cases action with
      | bind => exact hreturned
      | login =>
        dsimp only
        split
        · trivial
        · exact hreturned
  | bindCheck ok =>
    split at h
    · cases h
      split
      · exact .same hs trivial
      · exact .same hs hphase
    · cases h
      exact .same hs hphase
  | bindCreate ok =>
    cases ok with
    | true =>
      cases h
      exact .of_eq hs trivial rfl rfl rfl
    | false =>
      cases h
      exact .same hs trivial
  | thirdInfo ok => split at h <;> cases h <;> exact .same hs hphase
  | infoById ok =>
    split at h
    · next u _ =>
      cases h
      have hfound : ∀ code, Binds s none (.loginUser code (some u), s) := fun _ => .same hs trivial
      exact (hfound _).note _
    · cases h
      exact .same hs hphase
  | autoRegister answer =>
    split at h
    · cases h
      exact .same hs trivial
    · cases h
      exact .writeItem hs trivial fun _ => .inr hphase
    · cases h
      exact .same hs hphase
  | write =>
    cases h
    exact .writeItem hs trivial fun _ => .inl rfl
  | store =>
    cases h
    exact .of_eq hs trivial rfl rfl rfl
  | setFirstLogin now =>
    next u =>
    cases h
    have hdone : OauthPhase.done.Traced s.log := trivial
    exact .setFirstLogin hs hdone u now

theorem registerByOauth_binds {lower : String → String}
    {m : RegisterMove} (h : phase.registerByOauth s lower m = some next) :
    Binds s (phase.inserts s (.register m)) next := by
  cases m with (simp only [OauthPhase.registerByOauth] at h; split at h; on_goal 2 => cases h)
  | lock =>
    split at h
    · cases h
    · cases h
      exact .of_eq hs hphase rfl rfl rfl
  | thirdInfo ok =>
    split at h
    · cases h
      exact .same hs trivial
    · cases h
      exact .same hs hphase
  | infoById ok =>
    split at h
    · next u _ =>
      cases h
      have hfound : ∀ code, Binds s none (.loginUser code (some u), s.unlock) :=
        fun _ => .of_eq hs trivial rfl rfl rfl
      exact (hfound _).note _
    · cases h
      exact .of_eq hs trivial rfl rfl rfl
  | find typed ldap ok =>
    split at h
    · cases h
      exact .of_eq hs trivial rfl rfl rfl
    · split at h
      · cases h
        exact .same hs hphase
      · split at h
        · cases h
          exact .of_eq hs trivial rfl rfl rfl
        · cases h
          exact .same hs hphase
        · cases h
          exact .of_eq hs hphase rfl rfl rfl
        · split at h <;> cases h <;> exact .same hs hphase
  | link ok =>
    next code op oauthUser u new =>
    cases ok with
    | true =>
      cases h
      refine Binds.note _ (.of_eq hs trivial rfl rfl rfl)
    | false =>
      cases h
      exact .of_eq hs trivial rfl rfl rfl
  | create account outcome =>
    cases outcome with
    | failed | uncommitted =>
      cases h
      exact .of_eq hs trivial rfl rfl rfl
    | unbound | bound =>
      cases h
      exact Binds.note _ (.of_eq hs trivial rfl rfl rfl)
  | reread ok =>
    cases h
    exact .same hs trivial

theorem advance_binds {lower : String → String} {m : OauthMove} (h : phase.advance s lower m = some next) :
    Binds s (phase.inserts s m) next := by
  cases m with
  | oidcAuth code op => exact oidcAuth_binds hs h
  | query m => exact oidcAuthQueryPre_binds hs h
  | toBind m => exact toBind_binds hs h
  | confirm m => exact confirm_binds hs h
  | bindConfirm m => exact bindConfirm_binds hs h
  | callback m => exact oauthCallback_binds hs hphase h
  | register m => exact registerByOauth_binds hs hphase h

end

end

/-! ## Soundness -/

/-- Bindings that are left, and a history that went on. -/
theorem BindingsSound.sub (hs : BindingsSound s) (hrows : ∀ r ∈ s'.thirds.rows, r ∈ s.thirds.rows)
    (hlog : ∃ new, s'.log = new ++ s.log) : BindingsSound s' := by
  obtain ⟨new, hnew⟩ := hlog
  refine ⟨fun r hr r' hr' => hs.user r (hrows r hr) r' (hrows r' hr'),
    fun r hr r' hr' => hs.identity r (hrows r hr) r' (hrows r' hr'), fun r hr => ?_,
    fun r hr => hs.linked r (hrows r hr)⟩
  obtain ⟨hne, hreturned⟩ := hs.returned r (hrows r hr)
  rw [hnew]
  exact ⟨hne, hreturned.append new⟩

end Request

namespace Oauth

variable {H : Type*} {lower : String → String} {s t : Oauth H} {e : OauthEvent H}

/-- Every identity that is under way was returned. -/
structure Traced (s : Oauth H) : Prop where
  shared : s.shared.Traced
  phases : ∀ h, (s.phase h).Traced s.shared.log

theorem happen_log (s : OauthShared) (e : OauthEvent H) :
    (happen s e).log = s.log ∧ (happen s e).items = s.items := by
  cases e <;> exact ⟨rfl, rfl⟩

/-- A step of a request, or something else that happened. -/
theorem step_cases [DecidableEq H] (h : step lower s e = some t) :
    (∃ h' m next, e = .move h' m ∧ (s.phase h').advance s.shared lower m = some next ∧
      t = ⟨Function.update s.phase h' next.1, next.2⟩) ∨
    ((∀ h' m, e ≠ .move h' m) ∧ t = ⟨s.phase, happen s.shared e⟩) := by
  cases e with
  | move h' m =>
    obtain ⟨next, hnext, rfl⟩ := Option.map_eq_some_iff.mp h
    exact .inl ⟨h', m, next, rfl, hnext, rfl⟩
  | _ => exact .inr ⟨by simp, (Option.some.inj h).symm⟩

theorem Traced.step [DecidableEq H] (hs : s.Traced) (h : step lower s e = some t) : t.Traced := by
  rcases step_cases h with ⟨h', m, next, rfl, hnext, rfl⟩ | ⟨-, rfl⟩
  · have hbinds := advance_binds hs.shared (hs.phases h') hnext
    obtain ⟨new, hnew⟩ := hbinds.log
    refine ⟨hbinds.items, fun h'' => ?_⟩
    show (Function.update s.phase h' next.1 h'').Traced next.2.log
    by_cases hh : h'' = h'
    · subst hh
      rw [Function.update_self]
      exact hbinds.phase
    · rw [Function.update_of_ne hh, hnew]
      exact (hs.phases h'').append new
  · obtain ⟨hlog, hitems⟩ := happen_log s.shared e
    refine ⟨?_, fun h'' => ?_⟩
    · show OauthShared.Traced (happen s.shared e)
      rw [OauthShared.Traced, hlog, hitems]
      exact hs.shared
    · show (s.phase h'').Traced (happen s.shared e).log
      rw [hlog]
      exact hs.phases h''

end Oauth

end RustDesk.Api
