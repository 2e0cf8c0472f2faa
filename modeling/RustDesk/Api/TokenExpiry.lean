import Mathlib.Algebra.Order.Ring.Int
import RustDesk.Api.Tokens

/-!
# How long a token lasts

References: `rustdesk-api/service/user.go` (`UserTokenExpireTimestamp`, `RefreshAccessToken`,
`AutoRefreshAccessToken`, `InfoByAccessToken`), `http/middleware/admin.go` (`BackendUserAuth`).

A row is refreshed by a request that comes in the last third of its time. The third is rounded down to seconds, so
that a request may be told that there is time enough and the next one, a third later, that there is none. No setting
means seven days, of which `UserTokenExpireTimestamp` makes as many nanoseconds as they have seconds.
-/

namespace RustDesk.Api

namespace TokenConfig

section Visits

variable (cfg : TokenConfig) (u : ℕ × Account)

/-- The setting, or seven days. -/
def lifetime : ℤ := if cfg.tokenExpire = 0 then 604800 * 1_000_000_000 else cfg.tokenExpire

/-- A request of a user with a token that expires at `x`: whether it goes on, and when the token expires then. -/
def visit (x t : ℤ) : Bool × ℤ :=
  if unix t ≤ x ∧ checkUserEnable cfg.addDays t u.2 = true then
    (true, if x - unix t < cfg.refreshWindow then cfg.userTokenExpireTimestamp t else x)
  else (false, x)

def visits (x : ℤ) (ts : List ℤ) : ℤ := ts.foldl (fun x t => (cfg.visit u x t).2) x

end Visits

end TokenConfig

namespace Tokens

section Requests

variable (cfg : TokenConfig) (token : GoString)

/-- A request at a time. -/
def request (s : Tokens) (t : ℤ) : Bool × Tokens :=
  let answer := ({ s with now := t } : Tokens).backendUserAuth cfg ⟨[], token⟩
  (answer.1.isSome, answer.2)

def requests (s : Tokens) (ts : List ℤ) : Tokens := ts.foldl (fun s t => (s.request cfg token t).2) s

/-- The last request that went on, or the login. -/
def lastAccepted : Tokens → ℤ → List ℤ → ℤ
  | _, p, [] => p
  | s, p, t :: ts => lastAccepted (s.request cfg token t).2 (if (s.request cfg token t).1 then t else p) ts

def expiry (s : Tokens) : Option ℤ := (s.tokens.first fun r => r.2.token = token).map (·.2.expiredAt)

end Requests

/-- The token expires at `x` and is that of a user. -/
structure Holds (s : Tokens) (token : GoString) (x : ℤ) (u : ℕ × Account) : Prop where
  row : ∃ ut, s.tokens.first (fun r => r.2.token = token) = some ut ∧ ut.2.expiredAt = x ∧
    s.infoById ut.2.userId = some u

/-- Each request is one third of the lifetime after the one before, at most. -/
def Near (cfg : TokenConfig) (p t : ℤ) : Prop := p ≤ t ∧ 3 * (t - p) ≤ cfg.lifetime

end Tokens

/-- A token, as its login left it. -/
structure Session (cfg : TokenConfig) where
  tables : Tokens
  token : GoString
  user : ℕ × Account
  start : ℤ
  ne_nil : token ≠ []
  holds : tables.Holds token (cfg.userTokenExpireTimestamp start) user

namespace Session

variable {cfg : TokenConfig} (l : Session cfg)

/-- Whether a request goes on, after others. -/
def goesOn (ts : List ℤ) (t : ℤ) : Bool := ((l.tables.requests cfg l.token ts).request cfg l.token t).1

def expiryAfter (ts : List ℤ) : Option ℤ := (l.tables.requests cfg l.token ts).expiry l.token

/-- The user is enabled when these requests come. -/
def Enabled (ts : List ℤ) : Prop := ∀ t ∈ ts, checkUserEnable cfg.addDays t l.user.2 = true

end Session

/-- What a token is worth, from its login on. -/
structure SlidingExpiry (cfg : TokenConfig) : Prop where
  accepted : ∀ (l : Session cfg) (ts : List ℤ) (t : ℤ), List.IsChain (Tokens.Near cfg) (l.start :: (ts ++ [t])) →
    l.Enabled (ts ++ [t]) → l.goesOn ts t = true
  rejected : ∀ (l : Session cfg) (ts : List ℤ) (t : ℤ), List.IsChain (· ≤ ·) (l.start :: (ts ++ [t])) →
    l.tables.lastAccepted cfg l.token l.start ts + cfg.lifetime + 1_000_000_000 < t → l.goesOn ts t = false
  monotone : ∀ (l : Session cfg) (ts : List ℤ) (t : ℤ), List.IsChain (· ≤ ·) (l.start :: (ts ++ [t])) →
    ∃ x x', l.expiryAfter ts = some x ∧ l.expiryAfter (ts ++ [t]) = some x' ∧ x ≤ x'

/-! ## One request -/

namespace Tokens

variable {cfg : TokenConfig} {s : Tokens} {token : GoString} {u : ℕ × Account} {x : ℤ}

section

variable (h : s.Holds token x u)
include h

theorem Holds.expiry : s.expiry token = some x := by
  obtain ⟨ut, hfirst, rfl, -⟩ := h.row
  rw [Tokens.expiry, hfirst]
  rfl

/-- The row after it was refreshed. -/
theorem Holds.refresh {ut : ℕ × UserToken} (hut : s.tokens.first (fun r => r.2.token = token) = some ut) :
    (s.refreshAccessToken cfg ut).Holds token (cfg.userTokenExpireTimestamp s.now) u := by
  obtain ⟨ut', hut', -, hu⟩ := h.row
  obtain rfl : ut = ut' := by
    rw [hut] at hut'
    exact Option.some_inj.mp hut'
  refine ⟨Table.updateRow (fun r => r.1 = ut.1) (fun r => { r with expiredAt := cfg.userTokenExpireTimestamp s.now }) ut,
    ?_, ?_, ?_⟩
  · rw [refreshAccessToken]
    rw [Table.first_update fun r _ _ => rfl, hut, Option.map_some]
  · rw [Table.updateRow, if_pos (decide_eq_true rfl)]
  · rw [Table.updateRow, if_pos (decide_eq_true rfl)]
    exact hu

/-- **One request.** -/
theorem Holds.request (hne : token ≠ []) (t : ℤ) :
    (s.request cfg token t).1 = (cfg.visit u x t).1 ∧ (s.request cfg token t).2.Holds token (cfg.visit u x t).2 u := by
  have hnow : ({ s with now := t } : Tokens).Holds token x u := ⟨h.row⟩
  obtain ⟨ut, hut, hx, hu⟩ := hnow.row
  have hinfo : ({ s with now := t } : Tokens).infoByAccessToken token =
      if x < unix t then (none, some ut) else (some u, some ut) := by
    rw [infoByAccessToken, hut]
    dsimp only
    rw [hx, hu]
  rw [Tokens.request, backendUserAuth, TokenConfig.visit]
  rw [if_neg hne, accessByRow, hinfo]
  by_cases hlate : x < unix t
  · rw [if_pos hlate, if_neg (fun hin => absurd hin.1 (by omega))]
    exact ⟨rfl, hnow⟩
  · rw [if_neg hlate]
    dsimp only
    by_cases henabled : checkUserEnable cfg.addDays t u.2 = true
    · rw [if_pos henabled, if_pos ⟨by omega, henabled⟩]
      refine ⟨rfl, ?_⟩
      rw [autoRefreshAccessToken, hx]
      split
      · exact hnow.refresh hut
      · exact hnow
    · rw [if_neg henabled, if_neg (fun hin => henabled hin.2)]
      exact ⟨rfl, hnow⟩

/-- **All requests.** -/
theorem Holds.requests (hne : token ≠ []) (ts : List ℤ) :
    (s.requests cfg token ts).Holds token (cfg.visits u x ts) u := by
  induction ts generalizing s x with
  | nil => exact h
  | cons t ts ih => exact ih (h.request hne t).2

end

end Tokens

/-! ## The laws -/

section Laws

variable {cfg : TokenConfig} {u : ℕ × Account} {x p t : ℤ} {ts : List ℤ}

theorem refreshWindow_eq (h : 0 ≤ cfg.tokenExpire) : cfg.refreshWindow = cfg.tokenExpire / 3_000_000_000 := by
  rw [TokenConfig.refreshWindow, Int.tdiv_eq_ediv_of_nonneg h, Int.tdiv_eq_ediv_of_nonneg (by omega)]
  omega

/-- What follows the last request that went on, or the login. -/
theorem visit_le (hle : p ≤ t) (hx : x ≤ cfg.userTokenExpireTimestamp p) :
    (cfg.visit u x t).2 ≤ cfg.userTokenExpireTimestamp (if (cfg.visit u x t).1 then t else p) := by
  have hmono : cfg.userTokenExpireTimestamp p ≤ cfg.userTokenExpireTimestamp t := by
    unfold TokenConfig.userTokenExpireTimestamp unix
    dsimp only
    omega
  rw [TokenConfig.visit]
  split
  · rw [if_pos rfl]
    split <;> omega
  · rw [if_neg Bool.false_ne_true]
    exact hx

theorem le_visit (h : 0 ≤ cfg.tokenExpire) : x ≤ (cfg.visit u x t).2 := by
  rw [TokenConfig.visit]
  split
  · dsimp only
    split
    · next hnear =>
      rw [refreshWindow_eq h] at hnear
      unfold TokenConfig.userTokenExpireTimestamp unix at *
      dsimp only
      split <;> omega
    · exact le_rfl
  · exact le_rfl

theorem visit_late (hlate : x < unix t) : (cfg.visit u x t).1 = false := by
  rw [TokenConfig.visit, if_neg fun hin => absurd hin.1 (by omega)]

/-- A request with a third of the time left changes nothing. -/
theorem visit_early (hearly : cfg.refreshWindow ≤ x - unix t) : (cfg.visit u x t).2 = x := by
  rw [TokenConfig.visit]
  split
  · exact if_neg (by omega)
  · rfl

theorem visits_early (hearly : ∀ t ∈ ts, cfg.refreshWindow ≤ x - unix t) : cfg.visits u x ts = x := by
  induction ts with
  | nil => rfl
  | cons t ts ih =>
    rw [TokenConfig.visits, List.foldl_cons, visit_early (hearly t List.mem_cons_self)]
    exact ih fun t' ht' => hearly t' (List.mem_cons_of_mem _ ht')

/-- After a request that goes on, and after the login, there is a third of the time. -/
theorem visit_window (h : 0 ≤ cfg.tokenExpire) (hin : unix t ≤ x) (hu : checkUserEnable cfg.addDays t u.2 = true) :
    (cfg.visit u x t).1 = true ∧ cfg.refreshWindow ≤ (cfg.visit u x t).2 - unix t := by
  rw [TokenConfig.visit, if_pos ⟨hin, hu⟩]
  refine ⟨rfl, ?_⟩
  split
  · rw [refreshWindow_eq h]
    unfold TokenConfig.userTokenExpireTimestamp unix
    dsimp only
    split <;> omega
  · omega

section

variable (hset : cfg.tokenExpire ≠ 0) (h : 0 ≤ cfg.tokenExpire) (hthird : cfg.tokenExpire % 3_000_000_000 < 3)
  (hwindow : cfg.refreshWindow ≤ x - unix p)
include hset h hthird hwindow

/-- A third that is a number of seconds is not rounded. -/
theorem unix_le_of_near (hnear : Tokens.Near cfg p t) : unix t ≤ x := by
  obtain ⟨hle, hgap⟩ := hnear
  rw [TokenConfig.lifetime, if_neg hset] at hgap
  rw [refreshWindow_eq h] at hwindow
  unfold unix at *
  omega

theorem visits_accepted (hchain : List.IsChain (Tokens.Near cfg) (p :: (ts ++ [t])))
    (hu : ∀ t' ∈ ts ++ [t], checkUserEnable cfg.addDays t' u.2 = true) :
    (cfg.visit u (cfg.visits u x ts) t).1 = true := by
  induction ts generalizing x p with
  | nil =>
    have hnear : Tokens.Near cfg p t := by simpa using hchain
    exact (visit_window h (unix_le_of_near hset h hthird hwindow hnear) (hu t (by simp))).1
  | cons t' ts ih =>
    obtain ⟨hnear, hchain⟩ := List.isChain_cons_cons.mp hchain
    have hvisit := visit_window h (unix_le_of_near hset h hthird hwindow hnear) (hu t' (by simp))
    exact ih hvisit.2 hchain fun t'' ht'' => hu t'' (List.mem_cons_of_mem _ ht'')

end

end Laws

namespace Session

variable {cfg : TokenConfig} (l : Session cfg)

theorem goesOn_eq (ts : List ℤ) (t : ℤ) : l.goesOn ts t =
      (cfg.visit l.user (cfg.visits l.user (cfg.userTokenExpireTimestamp l.start) ts) t).1 :=
  ((l.holds.requests l.ne_nil ts).request l.ne_nil t).1

theorem expiryAfter_eq (ts : List ℤ) :
    l.expiryAfter ts = some (cfg.visits l.user (cfg.userTokenExpireTimestamp l.start) ts) :=
  (l.holds.requests l.ne_nil ts).expiry

/-- A token never lasts longer than its lifetime after the last request that went on. -/
theorem visits_le {s : Tokens} {x p : ℤ} {ts : List ℤ} (hs : s.Holds l.token x l.user)
    (hx : x ≤ cfg.userTokenExpireTimestamp p) (hle : ∀ t ∈ ts, p ≤ t) (hsorted : ts.Pairwise (· ≤ ·)) :
    cfg.visits l.user x ts ≤ cfg.userTokenExpireTimestamp (s.lastAccepted cfg l.token p ts) := by
  induction ts generalizing s x p with
  | nil => exact hx
  | cons t' ts ih =>
    obtain ⟨hanswer, hs'⟩ : (s.request cfg l.token t').1 = _ ∧ (s.request cfg l.token t').2.Holds l.token _ l.user :=
      hs.request l.ne_nil t'
    rw [TokenConfig.visits, List.foldl_cons, Tokens.lastAccepted, hanswer]
    obtain ⟨hlater, hsorted⟩ := List.pairwise_cons.mp hsorted
    refine ih hs' (visit_le (hle t' List.mem_cons_self) hx) (fun t'' ht'' => ?_) hsorted
    split
    · exact hlater t'' ht''
    · exact hle t'' (List.mem_cons_of_mem _ ht'')

theorem goesOn_late {ts : List ℤ} {t : ℤ} (hchain : List.IsChain (· ≤ ·) (l.start :: (ts ++ [t])))
    (hlate : l.tables.lastAccepted cfg l.token l.start ts + cfg.lifetime + 1_000_000_000 < t) : l.goesOn ts t = false := by
  obtain ⟨hle, hsorted⟩ := List.pairwise_cons.mp (List.isChain_iff_pairwise.mp hchain)
  have hexpiry := l.visits_le l.holds le_rfl (fun t' ht' => hle t' (List.mem_append_left _ ht'))
    (List.pairwise_append.mp hsorted).1
  rw [goesOn_eq]
  refine visit_late (lt_of_le_of_lt hexpiry ?_)
  unfold TokenConfig.userTokenExpireTimestamp TokenConfig.lifetime unix at *
  dsimp only
  split <;> split at hlate <;> omega

theorem expiry_mono (h : 0 ≤ cfg.tokenExpire) (ts : List ℤ) (t : ℤ) :
    ∃ x x', l.expiryAfter ts = some x ∧ l.expiryAfter (ts ++ [t]) = some x' ∧ x ≤ x' := by
  refine ⟨_, _, l.expiryAfter_eq ts, l.expiryAfter_eq (ts ++ [t]), ?_⟩
  rw [TokenConfig.visits, TokenConfig.visits, List.foldl_append]
  exact le_visit h

end Session

/-- A session of an administrator that begins at 0. -/
def sampleSession (cfg : TokenConfig) : Session cfg where
  tables := ⟨Table.empty.insert ⟨"", statusEnable, true, 0, none⟩,
    Table.empty.insert ⟨1, "", [1], cfg.userTokenExpireTimestamp 0⟩, 0, fun _ => false⟩
  token := [1]
  user := (1, ⟨"", statusEnable, true, 0, none⟩)
  start := 0
  ne_nil := List.cons_ne_nil _ _
  holds := ⟨(1, ⟨1, "", [1], cfg.userTokenExpireTimestamp 0⟩), rfl, rfl, rfl⟩

theorem sampleSession_enabled (cfg : TokenConfig) (ts : List ℤ) : (sampleSession cfg).Enabled ts := fun _ _ => rfl

/-- The setting of seven days ends at once. -/
theorem not_accepted_of_default {cfg : TokenConfig} (hset : cfg.tokenExpire = 0) :
    List.IsChain (Tokens.Near cfg) [0, 1_000_000_000] ∧ (sampleSession cfg).goesOn [] 1_000_000_000 = false := by
  constructor
  · refine .cons_cons ?_ (.singleton _)
    rw [Tokens.Near, TokenConfig.lifetime, if_pos hset]
    omega
  · rw [Session.goesOn_eq]
    refine visit_late ?_
    show cfg.userTokenExpireTimestamp 0 < _
    rw [TokenConfig.userTokenExpireTimestamp, if_pos hset]
    decide

/-- The requests that a third of another setting lets come too late: each finds time enough, and the last one
none. -/
theorem not_accepted_of_rounded {cfg : TokenConfig} (hle : 3_000_000_000 ≤ cfg.tokenExpire)
    (hthird : ¬ cfg.tokenExpire % 3_000_000_000 < 3) :
    ∃ ts t, List.IsChain (Tokens.Near cfg) (0 :: (ts ++ [t])) ∧ (sampleSession cfg).goesOn ts t = false := by
  have hset : cfg.tokenExpire ≠ 0 := by omega
  have hexpiry : cfg.userTokenExpireTimestamp 0 = cfg.tokenExpire / 1_000_000_000 := by
    rw [TokenConfig.userTokenExpireTimestamp, if_neg hset, zero_add]
    rfl
  have hwindow : cfg.refreshWindow = cfg.tokenExpire / 3_000_000_000 := refreshWindow_eq (by omega)
  -- the last nanosecond at which a request is told that there is time enough
  obtain ⟨t, ht⟩ : ∃ t, t = (cfg.tokenExpire / 1_000_000_000 - cfg.tokenExpire / 3_000_000_000 + 1) * 1_000_000_000 - 1 :=
    ⟨_, rfl⟩
  refine ⟨[t / 4, t / 2, 3 * t / 4, t], t + cfg.tokenExpire / 3_000_000_000 * 1_000_000_000 + 1, ?_, ?_⟩
  · have hnear : ∀ {p t' : ℤ}, p ≤ t' → 3 * (t' - p) ≤ cfg.tokenExpire → Tokens.Near cfg p t' := by
      intro p t' hp hgap
      refine ⟨hp, ?_⟩
      rwa [TokenConfig.lifetime, if_neg hset]
    refine .cons_cons (hnear ?_ ?_) (.cons_cons (hnear ?_ ?_) (.cons_cons (hnear ?_ ?_) (.cons_cons (hnear ?_ ?_)
      (.cons_cons (hnear ?_ ?_) (.singleton _)))))
    all_goals omega
  · have hlast : ∀ t' ∈ [t / 4, t / 2, 3 * t / 4, t], t' ≤ t := by
      intro t' ht'
      simp only [List.mem_cons, List.not_mem_nil, or_false] at ht'
      omega
    have hearly : ∀ t' ∈ [t / 4, t / 2, 3 * t / 4, t],
        cfg.refreshWindow ≤ cfg.tokenExpire / 1_000_000_000 - unix t' := by
      intro t' ht'
      have hle := hlast t' ht'
      rw [hwindow, unix]
      omega
    rw [Session.goesOn_eq]
    refine visit_late ?_
    show cfg.visits _ (cfg.userTokenExpireTimestamp 0) _ < _
    rw [hexpiry, visits_early hearly, unix]
    omega

/-- **Every request that comes in time goes on** just if the setting is a number of seconds that can be divided by
three; what comes too late never does. -/
theorem slidingExpiry_iff {cfg : TokenConfig} (h : cfg.tokenExpire = 0 ∨ 3_000_000_000 ≤ cfg.tokenExpire) :
    SlidingExpiry cfg ↔ cfg.tokenExpire ≠ 0 ∧ cfg.tokenExpire % 3_000_000_000 < 3 := by
  have hnonneg : 0 ≤ cfg.tokenExpire := by omega
  constructor
  · intro hlaw
    by_contra hnot
    by_cases hset : cfg.tokenExpire = 0
    · obtain ⟨hchain, hgone⟩ := not_accepted_of_default hset
      have hgoes := hlaw.accepted (sampleSession cfg) [] _ hchain (sampleSession_enabled cfg _)
      rw [hgone] at hgoes
      cases hgoes
    · obtain ⟨ts, t, hchain, hgone⟩ := not_accepted_of_rounded (h.resolve_left hset) fun hthird => hnot ⟨hset, hthird⟩
      have hgoes := hlaw.accepted (sampleSession cfg) ts t hchain (sampleSession_enabled cfg _)
      rw [hgone] at hgoes
      cases hgoes
  · rintro ⟨hset, hthird⟩
    refine ⟨fun l ts t hchain hu => ?_, fun l ts t hchain => l.goesOn_late hchain,
      fun l ts t _ => l.expiry_mono hnonneg ts t⟩
    rw [Session.goesOn_eq]
    refine visits_accepted hset hnonneg hthird ?_ hchain hu
    rw [refreshWindow_eq hnonneg, TokenConfig.userTokenExpireTimestamp, if_neg hset]
    unfold unix
    omega

/-- A configuration with a setting. -/
def sampleTokenConfig (tokenExpire : ℤ) : TokenConfig :=
  ⟨[], tokenExpire, fun _ _ _ => [], fun _ _ _ => 0, id, fun _ => [1], fun t days => t + days * 86_400_000_000_000⟩

/-- The week of the documentation. -/
theorem slidingExpiry_week :
    SlidingExpiry (sampleTokenConfig 604_800_000_000_000) ↔
      (sampleTokenConfig 604_800_000_000_000).tokenExpire ≠ 0 ∧
        (sampleTokenConfig 604_800_000_000_000).tokenExpire % 3_000_000_000 < 3 :=
  slidingExpiry_iff (.inr (by decide))

/-- No setting, and a request one second after the login. -/
theorem not_slidingExpiry_default : ¬ SlidingExpiry (sampleTokenConfig 0) := by
  intro hlaw
  obtain ⟨hchain, hgone⟩ := not_accepted_of_default (show (sampleTokenConfig 0).tokenExpire = 0 from rfl)
  have hgoes := hlaw.accepted (sampleSession (sampleTokenConfig 0)) [] _ hchain (sampleSession_enabled _ _)
  rw [hgone] at hgoes
  cases hgoes

end RustDesk.Api
