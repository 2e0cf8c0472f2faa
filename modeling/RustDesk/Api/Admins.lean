import Mathlib.Data.Int.Order.Basic
import Mathlib.Data.List.Nodup
import RustDesk.Common.Run

/-!
# The last administrator

Reference: `rustdesk-api/service/user.go` (`Update`, `Delete`, `IsAdmin`, `getAdminUserCount`,
`CheckUserEnable`).

`Update` and `Delete` refuse to touch the last admin, and count all admins for it, also those that are
disabled and cannot log in. `keepsAdmin_iff` says which calls leave somebody who can.
-/

namespace RustDesk.Api

/-- `COMMON_STATUS_ENABLE`. -/
def statusEnable : ℤ := 1

/-- `COMMON_STATUS_DISABLED`. -/
def statusDisabled : ℤ := 2

/-- A row of the user table. -/
structure UserRow where
  id : ℕ
  isAdmin : Bool
  status : ℤ
deriving DecidableEq

/-- An admin for whom `CheckUserEnable` is true: admins do not expire. -/
def UserRow.Working (r : UserRow) : Prop := r.isAdmin = true ∧ r.status = statusEnable

instance : DecidablePred UserRow.Working := fun _ => inferInstanceAs (Decidable (_ ∧ _))

/-- A `User` that is passed to a call. `IsAdmin` is a pointer, and a status of 0 is none. -/
structure UserArg where
  id : ℕ
  isAdmin : Option Bool
  status : ℤ
deriving DecidableEq

/-- The user table. -/
structure UserTable where
  rows : List UserRow
  ids : (rows.map (·.id)).Nodup
  positive : ∀ r ∈ rows, 0 < r.id

/-- The statements of a call: whether reading the user and counting the admins succeed, and the error of
what it writes. -/
structure UserStatements where
  read : Bool
  count : Bool
  write : Option String
deriving DecidableEq

namespace UserTable

variable (users : UserTable)

/-- The columns that `Updates(u)` writes: none that is nil or zero. -/
def overwrite (u : UserArg) (r : UserRow) : UserRow :=
  { r with isAdmin := u.isAdmin.getD r.isAdmin, status := if u.status = 0 then r.status else u.status }

def modify (u : UserArg) : UserTable where
  rows := users.rows.map fun r => if r.id = u.id then overwrite u r else r
  ids := by
    have hids : (users.rows.map fun r => if r.id = u.id then overwrite u r else r).map (·.id) =
        users.rows.map (·.id) := by
      rw [List.map_map]
      refine List.map_congr_left fun r _ => ?_
      simp only [Function.comp]
      split <;> rfl
    rw [hids]
    exact users.ids
  positive := by
    intro r hr
    obtain ⟨r', hr', rfl⟩ := List.mem_map.mp hr
    have hpos := users.positive r' hr'
    split <;> exact hpos

def remove (id : ℕ) : UserTable where
  rows := users.rows.filter (·.id ≠ id)
  ids := users.ids.sublist (List.filter_sublist.map _)
  positive := fun r hr => users.positive r (List.mem_of_mem_filter hr)

/-- The `IsAdmin` of `InfoById`, nil if no user is found. -/
def infoById (id : ℕ) : Option Bool := (users.rows.find? (·.id = id)).map (·.isAdmin)

/-- `getAdminUserCount`, which ignores an error. -/
def getAdminUserCount (ok : Bool) : ℕ := if ok then users.rows.countP (·.isAdmin) else 0

/-- The error of a statement on the row of a user, whose id may be missing. -/
def writeError (u : UserArg) (ok : UserStatements) : Option String :=
  if u.id = 0 then some "WHERE conditions required" else ok.write

/-- Whether `Update` refuses. `none` is a panic: `IsAdmin` of a user whose pointer is nil. -/
def updateRefuses (u : UserArg) (ok : UserStatements) : Option Bool :=
  match if ok.read then users.infoById u.id else none with
  | none => none
  | some currentIsAdmin =>
    if currentIsAdmin ∧ users.getAdminUserCount ok.count ≤ 1 then
      u.isAdmin.map fun isAdmin => !isAdmin || u.status = statusDisabled
    else some false

def update (u : UserArg) (ok : UserStatements) : Option (UserTable × Except String Unit) :=
  (users.updateRefuses u ok).map fun refuses =>
    if refuses then (users, .error "The last admin user cannot be disabled or demoted")
    else
      match writeError u ok with
      | some err => (users, .error err)
      | none => (users.modify u, .ok ())

/-- Whether `Delete` refuses. -/
def deleteRefuses (u : UserArg) (ok : UserStatements) : Option Bool :=
  if users.getAdminUserCount ok.count ≤ 1 then u.isAdmin else some false

/-- `Delete`. What it deletes besides the user is in the same transaction. -/
def delete (u : UserArg) (ok : UserStatements) : Option (UserTable × Except String Unit) :=
  (users.deleteRefuses u ok).map fun refuses =>
    if refuses then (users, .error "The last admin user cannot be deleted")
    else
      match writeError u ok with
      | some err => (users, .error err)
      | none => (users.remove u.id, .ok ())

end UserTable

/-- A call of `UserService`. -/
inductive UserCall
  | update (u : UserArg) (ok : UserStatements)
  | delete (u : UserArg) (ok : UserStatements)
deriving DecidableEq

namespace UserTable

/-- What a call leaves. A panic leaves everything as it is. -/
def step (users : UserTable) (call : UserCall) : UserTable :=
  let result :=
    match call with
    | .update u ok => users.update u ok
    | .delete u ok => users.delete u ok
  (result.map (·.1)).getD users

/-- There is somebody who can administer. -/
def Administered (users : UserTable) : Prop := ∃ r ∈ users.rows, r.Working

/-- Nobody else can administer. -/
def OnlyAdmin (users : UserTable) (id : ℕ) : Prop := ∀ r ∈ users.rows, r.Working → r.id = id

/-- An update that demotes, or enables nothing. -/
def Takes (u : UserArg) : Prop := u.isAdmin = some false ∨ u.status ≠ 0 ∧ u.status ≠ statusEnable

/-- If a call would take the last one who can administer, there is no other admin, not even a disabled one,
and the `User` passed says what is taken; or a statement fails. -/
def Spares (users : UserTable) : UserCall → Prop
  | .update u ok => users.OnlyAdmin u.id → Takes u →
      ok.read = false ∨ ok.write ≠ none ∨
        (ok.count = false ∨ users.rows.countP (·.isAdmin) ≤ 1) ∧
          (u.isAdmin ≠ some true ∨ u.status = statusDisabled)
  | .delete u ok => users.OnlyAdmin u.id →
      ok.write ≠ none ∨ (ok.count = false ∨ users.rows.countP (·.isAdmin) ≤ 1) ∧ u.isAdmin ≠ some false

variable {users : UserTable} {u : UserArg} {ok : UserStatements} {id : ℕ}

theorem administered_remove_iff : (users.remove id).Administered ↔ ¬ users.OnlyAdmin id := by
  constructor
  · rintro ⟨r, hr, hworking⟩ honly
    obtain ⟨hmem, hne⟩ := List.mem_filter.mp hr
    exact absurd (honly r hmem hworking) (by simpa using hne)
  · intro hother
    by_contra hnone
    refine hother fun r hr hworking => ?_
    by_contra hne
    exact hnone ⟨r, List.mem_filter.mpr ⟨hr, by simpa using hne⟩, hworking⟩

theorem Takes.not_working (h : Takes u) (r : UserRow) : ¬ (overwrite u r).Working := by
  rintro ⟨hadmin, hstatus⟩
  unfold overwrite at hadmin hstatus
  rcases h with hdemotes | ⟨hzero, hother⟩
  · rw [hdemotes] at hadmin
    exact Bool.false_ne_true hadmin
  · rw [if_neg hzero] at hstatus
    exact hother hstatus

theorem overwrite_working {r : UserRow} (hr : r.Working) (h : ¬ Takes u) : (overwrite u r).Working := by
  obtain ⟨hadmin, hstatus⟩ := hr
  refine ⟨?_, ?_⟩
  · show u.isAdmin.getD r.isAdmin = true
    cases hu : u.isAdmin with
    | none => exact hadmin
    | some isAdmin =>
      cases isAdmin with
      | true => rfl
      | false => exact absurd (.inl hu) h
  · show (if u.status = 0 then r.status else u.status) = statusEnable
    split
    · exact hstatus
    · next hzero =>
      by_contra hother
      exact h (.inr ⟨hzero, hother⟩)

theorem administered_modify_iff (h : users.Administered) :
    (users.modify u).Administered ↔ ¬ (users.OnlyAdmin u.id ∧ Takes u) := by
  constructor
  · rintro ⟨r', hr', hworking⟩ ⟨honly, htakes⟩
    obtain ⟨r, hr, rfl⟩ := List.mem_map.mp hr'
    split at hworking
    · exact htakes.not_working r hworking
    · next hne => exact hne (honly r hr hworking)
  · intro hspared
    by_cases honly : users.OnlyAdmin u.id
    · obtain ⟨r, hr, hworking⟩ := h
      refine ⟨_, List.mem_map.mpr ⟨r, hr, rfl⟩, ?_⟩
      rw [if_pos (honly r hr hworking)]
      exact overwrite_working hworking fun htakes => hspared ⟨honly, htakes⟩
    · obtain ⟨r, hr, hworking⟩ := administered_remove_iff.mpr honly
      obtain ⟨hmem, hne⟩ := List.mem_filter.mp hr
      refine ⟨_, List.mem_map.mpr ⟨r, hmem, rfl⟩, ?_⟩
      rw [if_neg (by simpa using hne)]
      exact hworking

/-- The only one who can administer is found, as an admin. -/
theorem infoById_of_onlyAdmin (h : users.Administered) (honly : users.OnlyAdmin id) :
    id ≠ 0 ∧ users.infoById id = some true := by
  obtain ⟨r, hr, hworking⟩ := h
  have hid := honly r hr hworking
  refine ⟨by have := users.positive r hr; omega, ?_⟩
  unfold infoById
  cases hfind : users.rows.find? (·.id = id) with
  | none => simpa [hid] using List.find?_eq_none.mp hfind r hr
  | some r' =>
    have hid' : r'.id = id := by simpa using List.find?_some hfind
    obtain rfl := List.inj_on_of_nodup_map users.ids (List.mem_of_find?_eq_some hfind) hr (hid'.trans hid.symm)
    rw [Option.map_some, hworking.1]

theorem step_update : users.step (.update u ok) =
    if users.updateRefuses u ok = some false ∧ writeError u ok = none then users.modify u else users := by
  show ((users.update u ok).map (·.1)).getD users = _
  unfold update
  rcases users.updateRefuses u ok with _ | _ | _ <;> cases writeError u ok <;> simp

theorem step_delete : users.step (.delete u ok) =
    if users.deleteRefuses u ok = some false ∧ writeError u ok = none then users.remove u.id
    else users := by
  show ((users.delete u ok).map (·.1)).getD users = _
  unfold delete
  rcases users.deleteRefuses u ok with _ | _ | _ <;> cases writeError u ok <;> simp

theorem getAdminUserCount_le_iff {count : Bool} :
    users.getAdminUserCount count ≤ 1 ↔ count = false ∨ users.rows.countP (·.isAdmin) ≤ 1 := by
  unfold getAdminUserCount
  cases count <;> simp

/-- When `Update` writes the row of an admin. -/
theorem updateRefuses_iff (hinfo : users.infoById u.id = some true) :
    users.updateRefuses u ok = some false ↔ ok.read = true ∧
      ¬ ((ok.count = false ∨ users.rows.countP (·.isAdmin) ≤ 1) ∧
        (u.isAdmin ≠ some true ∨ u.status = statusDisabled)) := by
  unfold updateRefuses
  rw [hinfo]
  cases ok.read with
  | false => simp
  | true =>
    simp only [if_true, true_and, getAdminUserCount_le_iff]
    split
    · next hfew => rcases u with ⟨id, _ | _ | _, status⟩ <;> simp [hfew]
    · next hmany => simp [hmany]

/-- When `Delete` deletes. -/
theorem deleteRefuses_iff : users.deleteRefuses u ok = some false ↔
    ¬ ((ok.count = false ∨ users.rows.countP (·.isAdmin) ≤ 1) ∧ u.isAdmin ≠ some false) := by
  unfold deleteRefuses
  simp only [getAdminUserCount_le_iff]
  split
  · next hfew => simp [hfew]
  · next hmany => simp [hmany]

/-- **One call.** -/
theorem administered_step_iff (h : users.Administered) (call : UserCall) :
    (users.step call).Administered ↔ users.Spares call := by
  cases call with
  | update u ok =>
    rw [step_update]
    by_cases hlast : users.OnlyAdmin u.id ∧ Takes u
    · obtain ⟨hid, hinfo⟩ := infoById_of_onlyAdmin h hlast.1
      have hspares : users.Spares (.update u ok) ↔
          ¬ (users.updateRefuses u ok = some false ∧ writeError u ok = none) := by
        rw [updateRefuses_iff hinfo, writeError, if_neg hid]
        unfold Spares
        rw [not_and_or, not_and_or, not_not, Bool.not_eq_true, or_assoc]
        tauto
      rw [hspares]
      split
      · next hwritten =>
        exact iff_of_false (fun hm => (administered_modify_iff h).mp hm hlast) (not_not_intro hwritten)
      · next hleft => exact iff_of_true h hleft
    · refine iff_of_true ?_ fun honly htakes => absurd ⟨honly, htakes⟩ hlast
      split
      · exact (administered_modify_iff h).mpr hlast
      · exact h
  | delete u ok =>
    rw [step_delete]
    by_cases honly : users.OnlyAdmin u.id
    · obtain ⟨hid, -⟩ := infoById_of_onlyAdmin h honly
      have hspares : users.Spares (.delete u ok) ↔
          ¬ (users.deleteRefuses u ok = some false ∧ writeError u ok = none) := by
        rw [deleteRefuses_iff, writeError, if_neg hid]
        unfold Spares
        tauto
      rw [hspares]
      split
      · next hwritten =>
        exact iff_of_false (fun hm => administered_remove_iff.mp hm honly) (not_not_intro hwritten)
      · next hleft => exact iff_of_true h hleft
    · refine iff_of_true ?_ fun honly' => absurd honly' honly
      split
      · exact administered_remove_iff.mpr honly
      · exact h

/-- **The last administrator.** From a table with somebody who can administer, through any sequence of
updates and deletions, there is always somebody left if and only if no call of the sequence takes the last
one while another admin is disabled, or without saying so. -/
theorem administered_iff {t : UserTable} {calls : List UserCall} (h : users.Administered) :
    Run (fun s call t => s.step call = t ∧ t.Administered) users calls t ↔
      Run (Only Spares fun s call t => s.step call = t) users calls t := by
  refine Run.good_iff_only (fun _ _ _ (_ : True) _ => trivial) ?_ trivial h
  rintro s call t - hs rfl
  exact administered_step_iff hs call

/-- Two admins who can log in. -/
def exampleAdmins : UserTable where
  rows := [⟨1, true, statusEnable⟩, ⟨2, true, statusEnable⟩]
  ids := by decide
  positive := by decide

/-- Nothing fails. -/
def exampleOk : UserStatements := ⟨true, true, none⟩

/-- The second admin is disabled, and the first one stays. -/
theorem administered_iff_two :
    Run (fun s call t => s.step call = t ∧ t.Administered) exampleAdmins
      [.update ⟨2, some true, statusDisabled⟩ exampleOk]
      (exampleAdmins.step (.update ⟨2, some true, statusDisabled⟩ exampleOk)) := by
  refine (administered_iff (by unfold Administered; decide)).mpr (.cons ⟨fun honly => ?_, rfl⟩ (.nil _))
  exact absurd (honly ⟨1, true, statusEnable⟩ (by decide) (by decide)) (by decide)

/-- One of two admins is disabled, then the other one: both calls count two admins, and nobody is left. -/
theorem disables_both :
    let first : UserCall := .update ⟨1, some true, statusDisabled⟩ exampleOk
    let second : UserCall := .update ⟨2, some true, statusDisabled⟩ exampleOk
    exampleAdmins.Administered ∧
      ((exampleAdmins.step first).step second).rows =
        [⟨1, true, statusDisabled⟩, ⟨2, true, statusDisabled⟩] ∧
      ¬ ((exampleAdmins.step first).step second).Administered ∧
      ¬ ((exampleAdmins.step first).step (.delete ⟨2, some true, statusEnable⟩ exampleOk)).Administered := by
  unfold Administered
  decide

end UserTable

end RustDesk.Api
