import RustDesk.Api.Oauth

/-!
# Who gets a token for a code

References: `rustdesk-api/http/controller/api/ouath.go` (`OidcAuth` to `OauthCallback`),
`http/controller/admin/oauth.go` (`ToBind` to `BindConfirm`).

A query issues a token for the user in the item of its code, whoever wrote it there. For a code that was begun
as a login that is a user whom the provider's identity belongs to, or one who confirmed the code. A code that
was begun as a binding has its user from the start, and the query does not look at the action. Nor does it
look at the user, and the load of the item, the deletion of the entry and the token are steps of their own.
-/

namespace RustDesk.Api

/-! ## What entitles to a token -/

/-- Since the code was begun as a login, the provider returned an identity for it that belongs to the user, or
the user confirmed it. -/
def Entitled (log : List OauthFact) (code : String) (userId : ℕ) : Prop :=
  ∃ since before, log = since ++ .begun code .login :: before ∧
    ((∃ oauthUser, .returned code oauthUser ∈ since ∧ .identified code oauthUser.openId userId ∈ since) ∨
      .confirmed code userId ∈ since)

/-- Every token was issued for a user who was entitled to it, was there and was enabled, and it was the first
for its code. -/
def TokensSound (addDays : ℤ → ℤ → ℤ) : List OauthFact → Prop
  | [] => True
  | .issued code userId row now :: log =>
    (Entitled log code userId ∧ (∀ userId' row' now', .issued code userId' row' now' ∉ log) ∧
      ∃ account, row = some account ∧ checkUserEnable addDays now account = true) ∧
    TokensSound addDays log
  | _ :: log => TokensSound addDays log

/-- Neither a code was taken nor a token issued. -/
def OauthFact.Quiet : OauthFact → Prop
  | .taken _ | .issued .. => False
  | _ => True

/-- Since the code was begun as a login, the provider returned an identity with this id for it. -/
def ReturnedFor (log : List OauthFact) (code openId : String) : Prop :=
  ∃ since before oauthUser, log = since ++ .begun code .login :: before ∧
    .returned code oauthUser ∈ since ∧ oauthUser.openId = openId

variable {log : List OauthFact} {code openId : String} {userId : ℕ}

theorem Entitled.append (new : List OauthFact) (h : Entitled log code userId) :
    Entitled (new ++ log) code userId := by
  obtain ⟨since, before, rfl, hfacts⟩ := h
  refine ⟨new ++ since, before, (List.append_assoc ..).symm, ?_⟩
  rcases hfacts with ⟨oauthUser, hreturned, hidentified⟩ | hconfirmed
  · exact .inl ⟨oauthUser, List.mem_append_right _ hreturned, List.mem_append_right _ hidentified⟩
  · exact .inr (List.mem_append_right _ hconfirmed)

theorem TokensSound.append {addDays : ℤ → ℤ → ℤ} {new : List OauthFact} (hnew : ∀ f ∈ new, f.Quiet)
    (h : TokensSound addDays log) : TokensSound addDays (new ++ log) := by
  induction new with
  | nil => exact h
  | cons f new ih =>
    rw [List.forall_mem_cons] at hnew
    cases f with
    | issued => exact hnew.1.elim
    | _ => exact ih hnew.2

theorem ReturnedFor.append (new : List OauthFact) (h : ReturnedFor log code openId) :
    ReturnedFor (new ++ log) code openId := by
  obtain ⟨since, before, oauthUser, rfl, hreturned, hopenId⟩ := h
  exact ⟨new ++ since, before, oauthUser, (List.append_assoc ..).symm, List.mem_append_right _ hreturned, hopenId⟩

/-- An identity that was returned entitles the user whom it belongs to. -/
theorem ReturnedFor.entitled (h : ReturnedFor log code openId) (userId : ℕ) :
    Entitled (.identified code openId userId :: log) code userId := by
  obtain ⟨since, before, oauthUser, rfl, hreturned, rfl⟩ := h
  exact ⟨.identified code oauthUser.openId userId :: since, before, rfl,
    .inl ⟨oauthUser, List.mem_cons_of_mem _ hreturned, List.mem_cons_self⟩⟩

/-! ## The invariant -/

namespace OauthShared

/-- An item that was begun as a login names a user who is entitled, if it names one. -/
structure Sound (s : OauthShared) : Prop where
  begun : ∀ code v, s.items code = some v → ∃ since before, s.log = since ++ .begun code v.action :: before
  entitled : ∀ code v, s.items code = some v → v.action = .login → v.userId ≠ 0 →
    Entitled s.log code v.userId
  ids : ∀ r ∈ s.users.rows, r.1 ≠ 0
  next : s.users.next ≠ 0

/-- A code was begun as a login or a binding. -/
def BegunAs (s : OauthShared) (code : String) (action : OauthActionType) : Prop :=
  ∃ v, s.items code = some v ∧ v.action = action

/-- The history goes on, and items keep their action. -/
structure Extends (s s' : OauthShared) : Prop where
  log : ∃ new, s'.log = new ++ s.log
  items : ∀ code action, s.BegunAs code action → s'.BegunAs code action

end OauthShared

/-- A user that was read from the item of a code, if the code was begun as a login, is entitled. -/
def ReadFrom (s : OauthShared) (code : String) (u : Option (ℕ × Account)) : Prop :=
  ∃ action, s.BegunAs code action ∧ (action = .login → ∀ r, u = some r → Entitled s.log code r.1)

/-- What a request that is under way knows. -/
def OauthPhase.Sound (s : OauthShared) : OauthPhase → Prop
  | .queryRead code userId =>
    ∃ action, s.BegunAs code action ∧ (action = .login → userId ≠ 0 → Entitled s.log code userId)
  | .queryFound code u | .queryMarked code u | .queryTaken code u => ReadFrom s code u
  | .callbackLoaded code action _ => s.BegunAs code action
  | .loginReturned code _ oauthUser | .loginBound code _ oauthUser _ | .loginUnknown code _ oauthUser
  | .registerWaiting code _ oauthUser | .registerLocked code _ oauthUser
  | .registerBound code oauthUser _ | .registerUnbound code _ oauthUser
  | .registerLink code _ oauthUser _ _ | .registerNew code _ oauthUser =>
    ReturnedFor s.log code oauthUser.openId
  | .registerCreated code userId => Entitled s.log code userId
  | .loginUser code u | .loginWritten code u => ∀ r, u = some r → Entitled s.log code r.1
  | _ => True

section Shared

variable {s s' : OauthShared}

namespace OauthShared

theorem Extends.refl (s : OauthShared) : s.Extends s := ⟨⟨[], rfl⟩, fun _ _ => id⟩

theorem Extends.of_eq (hlog : s'.log = s.log) (hitems : s'.items = s.items) : s.Extends s' := by
  refine ⟨⟨[], hlog⟩, fun code action hbegun => ?_⟩
  rw [BegunAs, hitems]
  exact hbegun

theorem Extends.entitled (h : s.Extends s') (he : Entitled s.log code userId) : Entitled s'.log code userId := by
  obtain ⟨new, hnew⟩ := h.log
  rw [hnew]
  exact he.append new

theorem Extends.returnedFor (h : s.Extends s') (hr : ReturnedFor s.log code openId) :
    ReturnedFor s'.log code openId := by
  obtain ⟨new, hnew⟩ := h.log
  rw [hnew]
  exact hr.append new

/-- Items and history are what counts, and that ids are given from 1 on. -/
theorem Sound.of_eq (h : s.Sound) (hlog : s'.log = s.log) (hitems : s'.items = s.items)
    (hids : ∀ r ∈ s'.users.rows, r.1 ≠ 0) (hnext : s'.users.next ≠ 0) : s'.Sound where
  begun := by
    rw [hlog, hitems]
    exact h.begun
  entitled := by
    rw [hlog, hitems]
    exact h.entitled
  ids := hids
  next := hnext

theorem Extends.note (fact : OauthFact) : s.Extends (s.note fact) := ⟨⟨[fact], rfl⟩, fun _ _ => id⟩

theorem Sound.note (h : s.Sound) (fact : OauthFact) : (s.note fact).Sound where
  begun code v hv := by
    obtain ⟨since, before, hlog⟩ := h.begun code v hv
    exact ⟨fact :: since, before, congrArg (fact :: ·) hlog⟩
  entitled code v hv haction hne := (h.entitled code v hv haction hne).append [fact]
  ids := h.ids
  next := h.next

theorem Sound.setFirstLogin (h : s.Sound) (u : Option (ℕ × Account)) (now : ℤ) :
    (s.setFirstLoginIfNeeded u now).Sound ∧ s.Extends (s.setFirstLoginIfNeeded u now) := by
  unfold setFirstLoginIfNeeded
  split
  · split
    · refine ⟨h.of_eq rfl rfl (fun r hr => ?_) h.next, .of_eq rfl rfl⟩
      obtain ⟨r', hr', rfl⟩ := Table.mem_update.mp hr
      rw [Table.updateRow_fst]
      exact h.ids r' hr'
    · exact ⟨h, .refl s⟩
  · exact ⟨h, .refl s⟩

theorem Sound.insertUser (h : s.Sound) (account : Account) : (s.insertUser account).Sound := by
  refine h.of_eq rfl rfl (fun r hr => ?_) (Nat.succ_ne_zero _)
  rcases Table.mem_insert.mp hr with hr | rfl
  · exact h.ids r hr
  · exact h.next

/-- A write that keeps the action of an item. -/
theorem Extends.writeItem {f : OauthCacheItem → OauthCacheItem} (hf : ∀ v, (f v).action = v.action) :
    s.Extends (s.writeItem code f) := by
  refine ⟨⟨[], rfl⟩, fun code' action hbegun => ?_⟩
  obtain ⟨v, hv, rfl⟩ := hbegun
  by_cases hcode : code' = code
  · subst hcode
    exact ⟨f v, by simp [OauthShared.writeItem, hv], hf v⟩
  · exact ⟨v, by simpa [OauthShared.writeItem, hcode] using hv, rfl⟩

theorem Sound.writeItem (h : s.Sound) {f : OauthCacheItem → OauthCacheItem} (hf : ∀ v, (f v).action = v.action)
    (hentitled : ∀ v, s.items code = some v → v.action = .login → (f v).userId ≠ 0 →
      Entitled s.log code (f v).userId) :
    (s.writeItem code f).Sound := by
  have hitem : ∀ code' v', (s.writeItem code f).items code' = some v' →
      (code' = code ∧ ∃ v, s.items code = some v ∧ f v = v') ∨ s.items code' = some v' := by
    intro code' v' hv'
    by_cases hcode : code' = code
    · subst hcode
      exact .inl ⟨rfl, by simpa [OauthShared.writeItem, Option.map_eq_some_iff] using hv'⟩
    · exact .inr (by simpa [OauthShared.writeItem, hcode] using hv')
  refine ⟨fun code' v' hv' => ?_, fun code' v' hv' haction hne => ?_, h.ids, h.next⟩
  · rcases hitem code' v' hv' with ⟨rfl, v, hv, rfl⟩ | hv'
    · rw [hf]
      exact h.begun _ v hv
    · exact h.begun _ v' hv'
  · rcases hitem code' v' hv' with ⟨rfl, v, hv, rfl⟩ | hv'
    · rw [hf] at haction
      exact hentitled v hv haction hne
    · exact h.entitled _ v' hv' haction hne

/-- A user who confirms a code is entitled, if it was begun as a login. -/
theorem Sound.confirm (h : s.Sound) (code : String) (userId : ℕ) :
    ((s.writeUserId code userId).note (.confirmed code userId)).Sound ∧
      s.Extends ((s.writeUserId code userId).note (.confirmed code userId)) := by
  have hsound : ((s.note (.confirmed code userId)).writeUserId code userId).Sound := by
    refine (h.note _).writeItem (fun _ => rfl) fun v hv haction _ => ?_
    obtain ⟨since, before, hlog⟩ := h.begun code v hv
    rw [haction] at hlog
    exact ⟨.confirmed code userId :: since, before, congrArg (_ :: ·) hlog, .inr List.mem_cons_self⟩
  refine ⟨hsound, ⟨⟨[.confirmed code userId], rfl⟩, ?_⟩⟩
  exact (Extends.writeItem (fun _ => rfl) : s.Extends (s.writeUserId code userId)).items

/-- A code is begun that was not given before. -/
theorem Sound.begin (h : s.Sound) (hfree : s.items code = none) {item : OauthCacheItem}
    (hitem : item.action = .login → item.userId = 0) :
    (s.begin code item).Sound ∧ s.Extends (s.begin code item) := by
  have hother : ∀ code' v, (s.begin code item).items code' = some v →
      (code' = code ∧ v = item) ∨ s.items code' = some v := by
    intro code' v hv
    by_cases hcode : code' = code
    · subst hcode
      exact .inl ⟨rfl, by simpa [OauthShared.begin, eq_comm] using hv⟩
    · exact .inr (by simpa [OauthShared.begin, hcode] using hv)
  refine ⟨⟨fun code' v hv => ?_, fun code' v hv haction hne => ?_, h.ids, h.next⟩,
    ⟨⟨[.begun code item.action], rfl⟩, fun code' action hbegun => ?_⟩⟩
  · rcases hother code' v hv with ⟨rfl, rfl⟩ | hv
    · exact ⟨[], s.log, rfl⟩
    · obtain ⟨since, before, hlog⟩ := h.begun code' v hv
      exact ⟨.begun code item.action :: since, before, congrArg (_ :: ·) hlog⟩
  · rcases hother code' v hv with ⟨rfl, rfl⟩ | hv
    · exact absurd (hitem haction) hne
    · exact (h.entitled code' v hv haction hne).append [_]
  · obtain ⟨v, hv, rfl⟩ := hbegun
    have hcode : code' ≠ code := by
      rintro rfl
      cases hfree.symm.trans hv
    exact ⟨v, by simpa [OauthShared.begin, hcode] using hv, rfl⟩

end OauthShared

/-- What a request knows, it goes on knowing. -/
theorem OauthPhase.Sound.mono {phase : OauthPhase} (h : phase.Sound s) (hext : s.Extends s') : phase.Sound s' := by
  have hread : ∀ code u, ReadFrom s code u → ReadFrom s' code u := by
    rintro code u ⟨action, hbegun, hentitled⟩
    exact ⟨action, hext.items code action hbegun, fun haction r hr => hext.entitled (hentitled haction r hr)⟩
  cases phase with
  | queryRead code userId =>
    obtain ⟨action, hbegun, hentitled⟩ := h
    exact ⟨action, hext.items code action hbegun, fun haction hne => hext.entitled (hentitled haction hne)⟩
  | queryFound code u | queryMarked code u | queryTaken code u => exact hread code u h
  | callbackLoaded code action op => exact hext.items code action h
  | loginReturned | loginBound | loginUnknown | registerWaiting | registerLocked | registerBound
  | registerUnbound | registerLink | registerNew => exact hext.returnedFor h
  | registerCreated => exact hext.entitled h
  | loginUser | loginWritten => exact fun r hr => hext.entitled (h r hr)
  | _ => trivial

end Shared

/-! ## One step of a request -/

/-- What a step leads to that neither takes a code nor issues a token. -/
structure Follows (s : OauthShared) (next : OauthPhase × OauthShared) : Prop where
  extends_ : s.Extends next.2
  quiet : ∃ new, next.2.log = new ++ s.log ∧ ∀ f ∈ new, f.Quiet
  sound : next.2.Sound
  phase : next.1.Sound next.2
  untaken : ∀ code u, next.1 ≠ .queryTaken code u

section Request

variable {s : OauthShared} {phase : OauthPhase} {next : OauthPhase × OauthShared} {phase' : OauthPhase}

theorem OauthShared.infoById_some {ok : Bool} {r : ℕ × Account} (h : s.infoById userId ok = some r) :
    r ∈ s.users.rows ∧ r.1 = userId := by
  unfold OauthShared.infoById at h
  split at h
  · exact ⟨Table.mem_of_first h, by simpa using Table.first_sat h⟩
  · cases h

/-- A step that shows in the phase alone. -/
theorem Follows.same (hs : s.Sound) (hphase : phase'.Sound s)
    (huntaken : ∀ code u, phase' ≠ .queryTaken code u) : Follows s (phase', s) :=
  ⟨.refl s, ⟨[], rfl, by simp⟩, hs, hphase, huntaken⟩

/-- A step that shows neither in the items nor in the history. -/
theorem Follows.of_eq (hs : s.Sound) {s' : OauthShared} (hphase : phase'.Sound s)
    (huntaken : ∀ code u, phase' ≠ .queryTaken code u) (hlog : s'.log = s.log)
    (hitems : s'.items = s.items) (husers : s'.users = s.users) : Follows s (phase', s') := by
  have hext : s.Extends s' := .of_eq hlog hitems
  refine ⟨hext, ⟨[], hlog, by simp⟩, hs.of_eq hlog hitems ?_ ?_, hphase.mono hext, huntaken⟩
  · rw [husers]
    exact hs.ids
  · rw [husers]
    exact hs.next

/-- A step that adds to the history what neither takes nor issues. -/
theorem Follows.note (hs : s.Sound) {fact : OauthFact} (hfact : fact.Quiet)
    (hphase : phase'.Sound (s.note fact)) (huntaken : ∀ code u, phase' ≠ .queryTaken code u) :
    Follows s (phase', s.note fact) :=
  ⟨.note fact, ⟨[fact], rfl, by simpa using hfact⟩, hs.note fact, hphase, huntaken⟩

theorem OauthShared.setFirstLoginIfNeeded_log (s : OauthShared) (u : Option (ℕ × Account)) (now : ℤ) :
    (s.setFirstLoginIfNeeded u now).log = s.log := by
  unfold OauthShared.setFirstLoginIfNeeded
  split
  · split <;> rfl
  · rfl

theorem Follows.setFirstLogin (hs : s.Sound) {u : Option (ℕ × Account)} {now : ℤ}
    (hphase : phase'.Sound s) (huntaken : ∀ code u, phase' ≠ .queryTaken code u) :
    Follows s (phase', s.setFirstLoginIfNeeded u now) := by
  obtain ⟨hsound, hext⟩ := hs.setFirstLogin u now
  exact ⟨hext, ⟨[], s.setFirstLoginIfNeeded_log u now, by simp⟩, hsound, hphase.mono hext, huntaken⟩

/-- The lock, the bindings and the users do not show in what the requests know. -/
theorem Follows.frame {s' s'' : OauthShared} (h : Follows s (phase', s'))
    (hlog : s''.log = s'.log) (hitems : s''.items = s'.items) (hids : ∀ r ∈ s''.users.rows, r.1 ≠ 0)
    (hnext : s''.users.next ≠ 0) : Follows s (phase', s'') := by
  have hext : s'.Extends s'' := .of_eq hlog hitems
  obtain ⟨new, hnew, hquiet⟩ := h.quiet
  refine ⟨⟨⟨new, hlog.trans hnew⟩, fun code action hbegun => ?_⟩, ⟨new, hlog.trans hnew, hquiet⟩,
    h.sound.of_eq hlog hitems hids hnext, h.phase.mono hext, h.untaken⟩
  exact hext.items code action (h.extends_.items code action hbegun)

section

variable (hs : s.Sound)
include hs

/-- A user was found for an identity that was returned. -/
theorem Follows.identified (hreturned : ReturnedFor s.log code openId) (u : ℕ × Account) :
    Follows s (.loginUser code (some u), s.note (.identified code openId u.1)) := by
  refine .note hs trivial (fun r hr => ?_) (by simp)
  cases hr
  exact hreturned.entitled _

theorem oidcAuth_follows {op : String} (h : phase.oidcAuth s code op = some next) : Follows s next := by
  unfold OauthPhase.oidcAuth at h
  split at h
  · next hfree =>
    cases h
    obtain ⟨hsound, hext⟩ : (s.begin code ⟨.login, op, 0, "", "", "", ""⟩).Sound ∧ s.Extends _ :=
      hs.begin hfree.2 fun _ => rfl
    exact ⟨hext, ⟨[.begun code .login], rfl, by simp [OauthFact.Quiet]⟩, hsound, trivial, by simp⟩
  · cases h

theorem toBind_follows {m : ToBindMove} (h : phase.toBind s m = some next) : Follows s next := by
  cases m with (simp only [OauthPhase.toBind] at h; split at h; on_goal 2 => cases h)
  | check userId op ok =>
    split at h
    · cases h
      exact .same hs trivial (by simp)
    · cases h
      exact .same hs trivial (by simp)
  | store code =>
    split at h
    · next userId op hfree =>
      cases h
      obtain ⟨hsound, hext⟩ : (s.begin code ⟨.bind, op, userId, "", "", "", ""⟩).Sound ∧
        s.Extends _ := hs.begin hfree nofun
      exact ⟨hext, ⟨[.begun code .bind], rfl, by simp [OauthFact.Quiet]⟩, hsound, trivial, by simp⟩
    · cases h

/-- The write of `Confirm` and of `BindConfirm`. -/
theorem Follows.confirmed (code : String) (userId : ℕ)
    (hphase : ∀ s, phase'.Sound s) (huntaken : ∀ code u, phase' ≠ .queryTaken code u) :
    Follows s (phase', (s.writeUserId code userId).note (.confirmed code userId)) := by
  obtain ⟨hsound, hext⟩ := hs.confirm code userId
  exact ⟨hext, ⟨[.confirmed code userId], rfl, by simp [OauthFact.Quiet]⟩, hsound, hphase _, huntaken⟩

theorem confirm_follows {m : ConfirmMove} (h : phase.confirm s m = some next) : Follows s next := by
  cases m with (simp only [OauthPhase.confirm] at h; split at h; on_goal 2 => cases h)
  | load code userId =>
    cases h
    split <;> exact .same hs trivial (by simp)
  | write =>
    cases h
    exact .confirmed hs _ _ (fun _ => trivial) (by simp)
  | store =>
    cases h
    exact .of_eq hs trivial (by simp) rfl rfl rfl

theorem bindConfirm_follows {m : BindConfirmMove} (h : phase.bindConfirm s m = some next) : Follows s next := by
  cases m with (simp only [OauthPhase.bindConfirm] at h; split at h; on_goal 2 => cases h)
  | load code userId =>
    cases h
    split <;> exact .same hs trivial (by simp)
  | read =>
    obtain ⟨v, -, rfl⟩ := Option.map_eq_some_iff.mp h
    exact .same hs trivial (by simp)
  | create ok =>
    split at h
    · cases h
      exact .of_eq hs trivial (by simp) rfl rfl rfl
    · cases h
      exact .same hs trivial (by simp)
  | write =>
    cases h
    exact .confirmed hs _ _ (fun _ => trivial) (by simp)
  | store =>
    cases h
    exact .of_eq hs trivial (by simp) rfl rfl rfl

/-- The steps of a query up to the one that takes the code. -/
theorem oidcAuthQueryPre_follows (hphase : phase.Sound s) {m : QueryMove}
    (h : phase.oidcAuthQueryPre s m = some next) (hdelete : m ≠ .delete) (hlogin : m ≠ .login) :
    Follows s next := by
  cases m with (simp only [OauthPhase.oidcAuthQueryPre] at h; split at h; on_goal 2 => cases h)
  | load code =>
    cases h
    split <;> exact .same hs trivial (by simp)
  | check =>
    obtain ⟨v, -, rfl⟩ := Option.map_eq_some_iff.mp h
    split <;> exact .same hs trivial (by simp)
  | readUserId =>
    next code =>
    obtain ⟨v, hv, rfl⟩ := Option.map_eq_some_iff.mp h
    exact .same hs ⟨v.action, ⟨v, hv, rfl⟩, hs.entitled code v hv⟩ (by simp)
  | infoById ok =>
    next code userId =>
    cases h
    obtain ⟨action, hbegun, hentitled⟩ := hphase
    refine .same hs ⟨action, hbegun, fun haction r hr => ?_⟩ (by simp)
    obtain ⟨hmem, rfl⟩ := OauthShared.infoById_some hr
    exact hentitled haction (hs.ids r hmem)
  | setFirstLogin now =>
    next code u =>
    cases h
    have hread : (OauthPhase.queryMarked code u).Sound s := hphase
    exact .setFirstLogin hs hread (by simp)
  | delete => exact absurd rfl hdelete
  | login => exact absurd rfl hlogin

theorem oauthCallback_follows (hphase : phase.Sound s) {m : CallbackMove}
    (h : phase.oauthCallback s m = some next) : Follows s next := by
  cases m with (simp only [OauthPhase.oauthCallback] at h; split at h; on_goal 2 => cases h)
  | load code =>
    split at h
    · obtain ⟨v, hv, rfl⟩ := Option.map_eq_some_iff.mp h
      exact .same hs ⟨v, hv, rfl⟩ (by simp)
    · cases h
      exact .same hs trivial (by simp)
  | callback answer =>
    next code action op =>
    split at h
    · cases h
      exact .same hs trivial (by simp)
    · next oauthUser =>
      obtain ⟨v, hv, rfl⟩ := Option.map_eq_some_iff.mp h
      obtain ⟨v', hv', haction⟩ : s.BegunAs code action := hphase
      cases hv.symm.trans hv'
      cases action with
      | bind => exact .note hs trivial trivial (by simp)
      | login =>
        -- whoever is bound to this identity will be entitled
        have hreturned : ReturnedFor (s.note (.returned code oauthUser)).log code oauthUser.openId := by
          obtain ⟨since, before, hlog⟩ := hs.begun code v hv
          rw [haction] at hlog
          exact ⟨.returned code oauthUser :: since, before, oauthUser, congrArg (_ :: ·) hlog,
            List.mem_cons_self, rfl⟩
        refine .note hs trivial ?_ ?_
        · dsimp only
          split
          · trivial
          · exact hreturned
        · intro code' u
          dsimp only
          split <;> simp
  | bindCheck ok =>
    split at h
    · cases h
      split
      · exact .same hs trivial (by simp)
      · exact .same hs trivial (by simp)
    · cases h
      exact .same hs trivial (by simp)
  | bindCreate ok =>
    cases h
    split
    · exact .of_eq hs trivial (by simp) rfl rfl rfl
    · exact .same hs trivial (by simp)
  | thirdInfo ok =>
    split at h
    · cases h
      exact .same hs hphase (by simp)
    · cases h
      exact .same hs hphase (by simp)
  | infoById ok =>
    split at h
    · next u _ =>
      cases h
      exact .identified hs hphase u
    · cases h
      exact .same hs hphase (by simp)
  | autoRegister answer =>
    split at h
    · cases h
      exact .same hs trivial (by simp)
    · cases h
      refine ⟨.writeItem fun _ => rfl, ⟨[], rfl, by simp⟩, ?_, trivial, by simp⟩
      exact hs.writeItem (fun _ => rfl) fun v hv => hs.entitled _ v hv
    · cases h
      exact .same hs hphase (by simp)
  | write =>
    next code u =>
    cases h
    have hext : s.Extends (s.writeUserId code (userIdOf u)) := .writeItem fun _ => rfl
    have hwritten : (OauthPhase.loginWritten code u).Sound s := hphase
    refine ⟨hext, ⟨[], rfl, by simp⟩, ?_, hwritten.mono hext, by simp⟩
    refine hs.writeItem (fun _ => rfl) fun v _ _ hne => ?_
    cases u with
    | none => exact absurd rfl hne
    | some r => exact hphase r rfl
  | store =>
    cases h
    exact .of_eq hs trivial (by simp) rfl rfl rfl
  | setFirstLogin now =>
    next u =>
    cases h
    exact .setFirstLogin hs trivial (by simp)

/-- The steps of a registration, unless it logs in whom it could not bind. -/
theorem registerByOauth_follows (hphase : phase.Sound s) {lower : String → String}
    {m : RegisterMove} (h : phase.registerByOauth s lower m = some next) (hlink : m ≠ .link false)
    (hcreate : ∀ account, m ≠ .create account .uncommitted) : Follows s next := by
  cases m with (simp only [OauthPhase.registerByOauth] at h; split at h; on_goal 2 => cases h)
  | lock =>
    split at h
    · cases h
    · cases h
      exact .of_eq hs hphase (by simp) rfl rfl rfl
  | thirdInfo ok =>
    split at h
    · cases h
      exact .same hs hphase (by simp)
    · cases h
      exact .same hs hphase (by simp)
  | infoById ok =>
    split at h
    · next u _ =>
      cases h
      have hnoted := Follows.identified hs hphase u
      exact hnoted.frame rfl rfl hs.ids hs.next
    · cases h
      exact .of_eq hs nofun (by simp) rfl rfl rfl
  | find typed ldap ok =>
    split at h
    · cases h
      exact .of_eq hs trivial (by simp) rfl rfl rfl
    · split at h
      · cases h
        exact .same hs hphase (by simp)
      · split at h
        · cases h
          exact .of_eq hs trivial (by simp) rfl rfl rfl
        · cases h
          exact .same hs hphase (by simp)
        · next account =>
          cases h
          exact ⟨.of_eq rfl rfl, ⟨[], rfl, by simp⟩, hs.insertUser account, hphase, by simp⟩
        · split at h
          · cases h
            exact .same hs hphase (by simp)
          · cases h
            exact .same hs hphase (by simp)
  | link ok =>
    next code op oauthUser u new =>
    cases ok with
    | false => exact absurd rfl hlink
    | true =>
      cases h
      have hnoted := Follows.identified hs hphase u
      exact hnoted.frame rfl rfl hs.ids hs.next
  | create account outcome =>
    next code op oauthUser =>
    have hregistered := hs.insertUser { account with email := oauthUser.email }
    have hnoted : Follows s (.registerCreated code s.users.next,
        s.note (.identified code oauthUser.openId s.users.next)) :=
      .note hs trivial (ReturnedFor.entitled hphase _) (by simp)
    split at h
    · cases h
      exact .of_eq hs trivial (by simp) rfl rfl rfl
    · exact absurd rfl (hcreate account)
    · cases h
      exact hnoted.frame rfl rfl hregistered.ids hregistered.next
    · cases h
      exact hnoted.frame rfl rfl hregistered.ids hregistered.next
  | reread ok =>
    next code userId =>
    cases h
    refine .same hs (fun r hr => ?_) (by simp)
    obtain ⟨-, rfl⟩ := OauthShared.infoById_some hr
    exact hphase

end

end Request

/-! ## Runs -/

namespace Oauth

variable {H : Type*} {lower : String → String} {addDays : ℤ → ℤ → ℤ} {s t : Oauth H} {h : H}

/-- What the steps must find for the tokens to be sound. A query takes a code that no other query took
before. It issues a token for a code that was begun as a login, to a user who was found, is still there and
is enabled. A registration logs in whom it could bind. -/
def Proper (addDays : ℤ → ℤ → ℤ) (s : Oauth H) : OauthEvent H → Prop
  | .move h (.query .delete) => ∀ code u, s.phase h = .queryMarked code u → .taken code ∉ s.shared.log
  | .move h (.query .login) => ∀ code u, s.phase h = .queryTaken code u →
    s.shared.BegunAs code .login ∧ ∃ r account, u = some r ∧ s.shared.account r.1 = some account ∧
      checkUserEnable addDays s.shared.now account = true
  | .move _ (.register (.link ok)) => ok = true
  | .move _ (.register (.create _ outcome)) => outcome ≠ .uncommitted
  | _ => True

/-- A request that took a code is the only one that did, and its token is still to come. -/
structure Sound (addDays : ℤ → ℤ → ℤ) (s : Oauth H) : Prop where
  shared : s.shared.Sound
  phases : ∀ h, (s.phase h).Sound s.shared
  tokens : TokensSound addDays s.shared.log
  taken : ∀ h code u, s.phase h = .queryTaken code u → .taken code ∈ s.shared.log ∧
    ∀ userId row now, .issued code userId row now ∉ s.shared.log
  one : ∀ h h' code u u', s.phase h = .queryTaken code u → s.phase h' = .queryTaken code u' → h = h'
  issued : ∀ code userId row now, .issued code userId row now ∈ s.shared.log →
    .taken code ∈ s.shared.log

theorem new_sound : (new : Oauth H).Sound addDays where
  shared := by
    refine ⟨?_, ?_, ?_, Nat.one_ne_zero⟩
    all_goals
      intros
      contradiction
  phases _ := trivial
  tokens := trivial
  taken h code u hphase := by cases hphase
  one h h' code u u' hphase := by cases hphase
  issued code userId row now hmem := absurd hmem List.not_mem_nil

section

variable (hs : s.Sound addDays)
include hs

/-- Other requests know what they knew. -/
theorem Sound.phases_update [DecidableEq H] {phase' : OauthPhase}
    {s' : OauthShared} (hext : s.shared.Extends s') (hphase : phase'.Sound s') (h' : H) :
    (Function.update s.phase h phase' h').Sound s' := by
  by_cases hh : h' = h
  · subst hh
    rwa [Function.update_self]
  · rw [Function.update_of_ne hh]
    exact (hs.phases h').mono hext

/-- A step that neither takes a code nor issues a token. -/
theorem Sound.follows [DecidableEq H] {next : OauthPhase × OauthShared} (hnext : Follows s.shared next) :
    Sound addDays ⟨Function.update s.phase h next.1, next.2⟩ := by
  obtain ⟨new, hlog, hquiet⟩ := hnext.quiet
  have hother : ∀ h' code u, Function.update s.phase h next.1 h' = .queryTaken code u →
      s.phase h' = .queryTaken code u := by
    intro h' code u hphase
    by_cases hh : h' = h
    · subst hh
      rw [Function.update_self] at hphase
      exact absurd hphase (hnext.untaken code u)
    · rwa [Function.update_of_ne hh] at hphase
  have hissued : ∀ code userId row now, .issued code userId row now ∈ next.2.log →
      .issued code userId row now ∈ s.shared.log := by
    intro code userId row now hmem
    rw [hlog] at hmem
    exact (List.mem_append.mp hmem).resolve_left fun hnew => hquiet _ hnew
  have htaken : ∀ code, .taken code ∈ s.shared.log → .taken code ∈ next.2.log := by
    intro code hmem
    rw [hlog]
    exact List.mem_append_right _ hmem
  refine ⟨hnext.sound, hs.phases_update hnext.extends_ hnext.phase, ?_, ?_, ?_, ?_⟩
  · show TokensSound addDays next.2.log
    rw [hlog]
    exact hs.tokens.append hquiet
  · intro h' code u hphase
    obtain ⟨hmem, hnone⟩ := hs.taken h' code u (hother h' code u hphase)
    exact ⟨htaken code hmem, fun userId row now hmem' => hnone userId row now (hissued _ _ _ _ hmem')⟩
  · intro h' h'' code u u' hphase hphase'
    exact hs.one h' h'' code u u' (hother _ _ _ hphase) (hother _ _ _ hphase')
  · intro code userId row now hmem
    exact htaken code (hs.issued code userId row now (hissued _ _ _ _ hmem))

/-- A query takes its code, which no other query took. -/
theorem Sound.takes [DecidableEq H] {code : String}
    {u : Option (ℕ × Account)} (hphase : s.phase h = .queryMarked code u)
    (hfirst : .taken code ∉ s.shared.log) :
    Sound addDays ⟨Function.update s.phase h (.queryTaken code u),
      (s.shared.setCached code false).note (.taken code)⟩ := by
  have hext : s.shared.Extends ((s.shared.setCached code false).note (.taken code)) :=
    ⟨⟨[.taken code], rfl⟩, fun _ _ => id⟩
  have hread : (OauthPhase.queryTaken code u).Sound s.shared := by
    have hmarked := hs.phases h
    rwa [hphase] at hmarked
  have hsound : ((s.shared.setCached code false).note (.taken code)).Sound :=
    (hs.shared.note (.taken code)).of_eq rfl rfl hs.shared.ids hs.shared.next
  have hcode : ∀ h' code' u', Function.update s.phase h (.queryTaken code u) h' = .queryTaken code' u' →
      (h' = h ∧ code' = code) ∨ (s.phase h' = .queryTaken code' u' ∧ code' ≠ code) := by
    intro h' code' u' hphase'
    by_cases hh : h' = h
    · subst hh
      rw [Function.update_self] at hphase'
      cases hphase'
      exact .inl ⟨rfl, rfl⟩
    · rw [Function.update_of_ne hh] at hphase'
      refine .inr ⟨hphase', ?_⟩
      rintro rfl
      exact hfirst (hs.taken h' code' u' hphase').1
  refine ⟨hsound, hs.phases_update hext (hread.mono hext), hs.tokens, ?_, ?_, ?_⟩
  · intro h' code' u' hphase'
    rcases hcode h' code' u' hphase' with ⟨-, rfl⟩ | ⟨hphase', -⟩
    · refine ⟨List.mem_cons_self, fun userId row now hmem => hfirst ?_⟩
      exact hs.issued code' userId row now ((List.mem_cons.mp hmem).resolve_left nofun)
    · obtain ⟨hmem, hnone⟩ := hs.taken h' code' u' hphase'
      refine ⟨List.mem_cons_of_mem _ hmem, fun userId row now hmem' => hnone userId row now ?_⟩
      exact (List.mem_cons.mp hmem').resolve_left nofun
  · intro h' h'' code' u' u'' hphase' hphase''
    rcases hcode h' code' u' hphase' with ⟨rfl, rfl⟩ | ⟨hphase', hne⟩
    · rcases hcode h'' code' u'' hphase'' with ⟨rfl, -⟩ | ⟨-, hne⟩
      · rfl
      · exact absurd rfl hne
    · rcases hcode h'' code' u'' hphase'' with ⟨-, rfl⟩ | ⟨hphase'', -⟩
      · exact absurd rfl hne
      · exact hs.one h' h'' code' u' u'' hphase' hphase''
  · intro code' userId row now hmem
    exact List.mem_cons_of_mem _ (hs.issued code' userId row now ((List.mem_cons.mp hmem).resolve_left nofun))

/-- A query issues its token. -/
theorem Sound.issues [DecidableEq H] {code : String}
    {u : Option (ℕ × Account)} (hphase : s.phase h = .queryTaken code u)
    (hproper : s.shared.BegunAs code .login ∧ ∃ r account, u = some r ∧
      s.shared.account r.1 = some account ∧ checkUserEnable addDays s.shared.now account = true) :
    Sound addDays ⟨Function.update s.phase h .done,
      s.shared.note (.issued code (userIdOf u) (s.shared.account (userIdOf u)) s.shared.now)⟩ := by
  obtain ⟨⟨v, hv, haction⟩, r, account, rfl, haccount, henabled⟩ := hproper
  obtain ⟨htaken, hnone⟩ := hs.taken h code (some r) hphase
  have hentitled : Entitled s.shared.log code r.1 := by
    have hread := hs.phases h
    rw [hphase] at hread
    obtain ⟨action, ⟨v', hv', rfl⟩, hentitled⟩ := hread
    cases hv.symm.trans hv'
    exact hentitled haction r rfl
  have hphases : ∀ h' code' u', Function.update s.phase h .done h' = .queryTaken code' u' →
      s.phase h' = .queryTaken code' u' ∧ code' ≠ code := by
    intro h' code' u' hphase'
    by_cases hh : h' = h
    · subst hh
      rw [Function.update_self] at hphase'
      cases hphase'
    · rw [Function.update_of_ne hh] at hphase'
      refine ⟨hphase', ?_⟩
      rintro rfl
      exact hh (hs.one h' h code' u' _ hphase' hphase)
  refine ⟨hs.shared.note _, hs.phases_update (.note _) trivial, ?_, ?_, ?_, ?_⟩
  · exact ⟨⟨hentitled, hnone, account, haccount, henabled⟩, hs.tokens⟩
  · intro h' code' u' hphase'
    obtain ⟨hphase', hne⟩ := hphases h' code' u' hphase'
    obtain ⟨hmem, hnone'⟩ := hs.taken h' code' u' hphase'
    refine ⟨List.mem_cons_of_mem _ hmem, fun userId row now hmem' => ?_⟩
    rcases List.mem_cons.mp hmem' with heq | hmem'
    · cases heq
      exact hne rfl
    · exact hnone' userId row now hmem'
  · intro h' h'' code' u' u'' hphase' hphase''
    exact hs.one h' h'' code' u' u'' (hphases _ _ _ hphase').1 (hphases _ _ _ hphase'').1
  · intro code' userId row now hmem
    rcases List.mem_cons.mp hmem with heq | hmem
    · cases heq
      exact List.mem_cons_of_mem _ htaken
    · exact List.mem_cons_of_mem _ (hs.issued code' userId row now hmem)

/-- What else happens shows neither in the items nor in the history. -/
theorem Sound.happen (e : OauthEvent H) : Sound addDays ⟨s.phase, Oauth.happen s.shared e⟩ := by
  have hlog : (Oauth.happen s.shared e).log = s.shared.log := by cases e <;> rfl
  have hitems : (Oauth.happen s.shared e).items = s.shared.items := by cases e <;> rfl
  have hsound : (Oauth.happen s.shared e).Sound := by
    refine hs.shared.of_eq hlog hitems ?_ ?_
    · intro r hr
      cases e with
      | deleteUser userId => exact hs.shared.ids r (List.mem_filter.mp hr).1
      | createUser account => exact (hs.shared.insertUser account).ids r hr
      | setUser userId account =>
        obtain ⟨r', hr', rfl⟩ := Table.mem_update.mp hr
        rw [Table.updateRow_fst]
        exact hs.shared.ids r' hr'
      | _ => exact hs.shared.ids r hr
    · cases e with
      | createUser account => exact Nat.succ_ne_zero _
      | _ => exact hs.shared.next
  refine ⟨hsound, fun h => (hs.phases h).mono (.of_eq hlog hitems), ?_, ?_, hs.one, ?_⟩
  · show TokensSound addDays (Oauth.happen s.shared e).log
    rw [hlog]
    exact hs.tokens
  · rw [hlog]
    exact hs.taken
  · rw [hlog]
    exact hs.issued

theorem Sound.step [DecidableEq H] {e : OauthEvent H}
    (hproper : s.Proper addDays e) (h : s.step lower e = some t) : t.Sound addDays := by
  cases e with
  | move h' m =>
    obtain ⟨next, hnext, rfl⟩ := Option.map_eq_some_iff.mp h
    have hphase := hs.phases h'
    cases m with
    | oidcAuth code op => exact hs.follows (oidcAuth_follows hs.shared hnext)
    | toBind m => exact hs.follows (toBind_follows hs.shared hnext)
    | confirm m => exact hs.follows (confirm_follows hs.shared hnext)
    | bindConfirm m => exact hs.follows (bindConfirm_follows hs.shared hnext)
    | callback m => exact hs.follows (oauthCallback_follows hs.shared hphase hnext)
    | register m =>
      refine hs.follows (registerByOauth_follows hs.shared hphase hnext ?_ ?_)
      · rintro rfl
        exact Bool.false_ne_true hproper
      · rintro account rfl
        exact hproper rfl
    | query m =>
      by_cases hdelete : m = .delete
      · subst hdelete
        simp only [OauthPhase.advance, OauthPhase.oidcAuthQueryPre] at hnext
        split at hnext
        · next code u hmarked =>
          cases hnext
          exact hs.takes hmarked (hproper code u hmarked)
        · cases hnext
      · by_cases hlogin : m = .login
        · subst hlogin
          simp only [OauthPhase.advance, OauthPhase.oidcAuthQueryPre] at hnext
          split at hnext
          · next code u htaken =>
            cases hnext
            exact hs.issues htaken (hproper code u htaken)
          · cases hnext
        · exact hs.follows (oidcAuthQueryPre_follows hs.shared hphase hnext hdelete hlogin)
  | _ =>
    cases h
    exact hs.happen _

end

end Oauth

end RustDesk.Api
