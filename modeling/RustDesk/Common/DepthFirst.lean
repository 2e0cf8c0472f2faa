import Mathlib.Data.List.Nodup
import Mathlib.Tactic.Common

/-!
# Searching in depth

A search visits a node unless one with its key was visited before, keeps what the node gives, and goes on with the
nodes behind it before it comes to the next. The first node that fails ends it.

A search that does not fail has visited, once for each key, the nodes that can be reached. It fails just if one of
them does. As much fuel is enough as it takes to come to a node from which nothing goes on.
-/

namespace DepthFirst

/-- Why a search ends early. -/
inductive Stopped (E : Type*)
  | failed (e : E)
  | outOfFuel
deriving DecidableEq

variable {K C A E : Type*}

/-- The keys of the nodes that were visited. -/
def keys (key : K → C) (out : List (K × A)) : List C := out.map fun e => key e.1

/-- Visit a node, and the nodes behind it. What was visited is kept in its order. -/
def visit [DecidableEq C] (key : K → C) (expand : K → Except E (A × List K)) :
    ℕ → List (K × A) → K → Except (Stopped E) (List (K × A))
  | 0, _, _ => .error .outOfFuel
  | fuel + 1, out, k =>
    if key k ∈ keys key out then .ok out
    else
      match expand k with
      | .error e => .error (.failed e)
      | .ok (a, next) => next.foldlM (visit key expand fuel) (out ++ [(k, a)])

/-- Visit some nodes, one after the other. -/
def search [DecidableEq C] (key : K → C) (expand : K → Except E (A × List K)) (fuel : ℕ) (starts : List K) :
    Except (Stopped E) (List (K × A)) :=
  starts.foldlM (visit key expand fuel) []

/-- A node that can be reached from some. -/
inductive Reached (expand : K → Except E (A × List K)) (starts : List K) : K → Prop
  | start {k : K} (h : k ∈ starts) : Reached expand starts k
  | next {k c : K} {a : A} {next : List K} (hk : Reached expand starts k) (h : expand k = .ok (a, next))
      (hc : c ∈ next) : Reached expand starts c

/-- What a search adds: nodes of new keys, from which it went on with all that is behind them. -/
structure Grows (key : K → C) (expand : K → Except E (A × List K)) (near : K → Prop) (out out' : List (K × A)) :
    Prop where
  kept : out <+: out'
  nodup : (keys key out).Nodup → (keys key out').Nodup
  added : ∀ e ∈ out', e ∈ out ∨
    near e.1 ∧ ∃ next, expand e.1 = .ok (e.2, next) ∧ ∀ c ∈ next, key c ∈ keys key out'

section Reached

variable {expand : K → Except E (A × List K)} {starts starts' : List K} {k x : K}

theorem Reached.mono (h : Reached expand starts x) (hsub : ∀ k ∈ starts, Reached expand starts' k) :
    Reached expand starts' x := by
  induction h with
  | start hk => exact hsub _ hk
  | next _ hexpand hc ih => exact .next ih hexpand hc

/-- Behind a node that is reached. -/
theorem Reached.trans (h : Reached expand [x] k) (hx : Reached expand starts x) : Reached expand starts k := by
  refine h.mono fun y hy => ?_
  obtain rfl := List.mem_singleton.mp hy
  exact hx

/-- Behind a node, by a node that comes next. -/
theorem Reached.behind {a : A} {next : List K} {c : K} (hexpand : expand k = .ok (a, next)) (hc : c ∈ next)
    (h : Reached expand [c] x) : Reached expand [k] x :=
  h.trans (.next (.start (List.mem_singleton_self k)) hexpand hc)

end Reached

section Growth

variable {key : K → C} {expand : K → Except E (A × List K)} {near near' : K → Prop}
  {out out' out'' : List (K × A)} {rank : K → ℕ}

theorem keys_append (key : K → C) (out out' : List (K × A)) : keys key (out ++ out') = keys key out ++ keys key out' :=
  List.map_append

theorem mem_keys_of_kept (h : out <+: out') {c : C} (hc : c ∈ keys key out) : c ∈ keys key out' :=
  (h.map _).subset hc

theorem Grows.refl (key : K → C) (expand : K → Except E (A × List K)) (near : K → Prop) (out : List (K × A)) :
    Grows key expand near out out :=
  ⟨List.prefix_rfl, id, fun _ he => .inl he⟩

theorem Grows.mono (h : Grows key expand near out out') (hnear : ∀ k, near k → near' k) :
    Grows key expand near' out out' :=
  ⟨h.kept, h.nodup, fun e he => (h.added e he).imp id fun hnew => ⟨hnear _ hnew.1, hnew.2⟩⟩

theorem Grows.trans (h : Grows key expand near out out') (h' : Grows key expand near out' out'') :
    Grows key expand near out out'' := by
  refine ⟨h.kept.trans h'.kept, h'.nodup ∘ h.nodup, fun e he => ?_⟩
  rcases h'.added e he with hold | hnew
  · refine (h.added e hold).imp id ?_
    rintro ⟨hnear, next, hexpand, hnext⟩
    exact ⟨hnear, next, hexpand, fun c hc => mem_keys_of_kept h'.kept (hnext c hc)⟩
  · exact .inr hnew

/-- A visit to one node after the other. -/
theorem grows_foldlM {f : List (K × A) → K → Except (Stopped E) (List (K × A))} {ks : List K}
    (hf : ∀ k ∈ ks, ∀ out out', f out k = .ok out' → Grows key expand near out out' ∧ key k ∈ keys key out')
    (h : ks.foldlM f out = .ok out') : Grows key expand near out out' ∧ ∀ k ∈ ks, key k ∈ keys key out' := by
  induction ks generalizing out with
  | nil =>
    cases h
    exact ⟨.refl _ _ _ _, nofun⟩
  | cons k ks ih =>
    rw [List.foldlM_cons] at h
    rw [List.forall_mem_cons] at hf
    cases hk : f out k with
    | error s =>
      rw [hk] at h
      cases h
    | ok mid =>
      rw [hk] at h
      obtain ⟨hgrows, hmem⟩ := hf.1 out mid hk
      obtain ⟨hrest, hmems⟩ := ih hf.2 h
      exact ⟨hgrows.trans hrest, List.forall_mem_cons.mpr ⟨mem_keys_of_kept hrest.kept hmem, hmems⟩⟩

variable [DecidableEq C]

/-- **What a visit adds** is reached from its node. -/
theorem grows_visit (fuel : ℕ) : ∀ k out out', visit key expand fuel out k = .ok out' →
      Grows key expand (Reached expand [k]) out out' ∧ key k ∈ keys key out' := by
  induction fuel with
  | zero => exact fun _ _ _ h => nomatch h
  | succ fuel ih =>
    intro k out out' h
    rw [visit] at h
    by_cases hmem : key k ∈ keys key out
    · rw [if_pos hmem] at h
      cases h
      exact ⟨.refl _ _ _ _, hmem⟩
    · rw [if_neg hmem] at h
      cases hexpand : expand k with
      | error e =>
        rw [hexpand] at h
        cases h
      | ok res =>
        obtain ⟨a, next⟩ := res
        rw [hexpand] at h
        have hstep : ∀ c ∈ next, ∀ o o', visit key expand fuel o c = .ok o' →
            Grows key expand (Reached expand [k]) o o' ∧ key c ∈ keys key o' := fun c hc o o' ho =>
          ⟨(ih c o o' ho).1.mono fun _ hx => hx.behind hexpand hc, (ih c o o' ho).2⟩
        obtain ⟨hgrows, hnext⟩ := grows_foldlM hstep h
        have hself : key k ∈ keys key (out ++ [(k, a)]) := by
          rw [keys_append]
          exact List.mem_append_right _ (List.mem_singleton_self _)
        refine ⟨⟨(List.prefix_append _ _).trans hgrows.kept, fun hnodup => hgrows.nodup ?_, fun e he => ?_⟩,
          mem_keys_of_kept hgrows.kept hself⟩
        · rw [keys_append]
          exact List.nodup_append_comm.mpr (List.nodup_cons.mpr ⟨hmem, hnodup⟩)
        · rcases hgrows.added e he with hold | hnew
          · refine (List.mem_append.mp hold).imp id fun hlast => ?_
            obtain rfl := List.mem_singleton.mp hlast
            exact ⟨.start (List.mem_singleton_self k), next, hexpand, hnext⟩
          · exact .inr hnew

variable {fuel : ℕ} {starts : List K}

/-- What a search adds is reached from its starts. -/
theorem grows_search (h : search key expand fuel starts = .ok out) :
    Grows key expand (Reached expand starts) [] out ∧ ∀ k ∈ starts, key k ∈ keys key out := by
  refine grows_foldlM (fun k hk o o' ho => ?_) h
  obtain ⟨hgrows, hmem⟩ := grows_visit fuel k o o' ho
  exact ⟨hgrows.mono fun x hx => hx.trans (.start hk), hmem⟩

/-- Nodes of one key have nodes of the same keys behind them. -/
def Uniform (key : K → C) (expand : K → Except E (A × List K)) : Prop :=
  ∀ k k' a next, key k = key k' → expand k = .ok (a, next) →
    ∃ a' next', expand k' = .ok (a', next') ∧ next'.map key = next.map key

/-- **A search visits what can be reached**, once for each key. -/
theorem visited_of_search (huniform : Uniform key expand) (h : search key expand fuel starts = .ok out) :
    (keys key out).Nodup ∧ (∀ e ∈ out, Reached expand starts e.1 ∧ ∃ next, expand e.1 = .ok (e.2, next)) ∧
      ∀ k, Reached expand starts k → (∃ res, expand k = .ok res) ∧ key k ∈ keys key out := by
  obtain ⟨hgrows, hstarts⟩ := grows_search h
  have hadded : ∀ e ∈ out, Reached expand starts e.1 ∧ ∃ next, expand e.1 = .ok (e.2, next) ∧
      ∀ c ∈ next, key c ∈ keys key out := fun e he => (hgrows.added e he).resolve_left List.not_mem_nil
  have hexpands (k : K) (hk : key k ∈ keys key out) :
      ∃ a next, expand k = .ok (a, next) ∧ ∀ c ∈ next, key c ∈ keys key out := by
    obtain ⟨e, he, hkey⟩ := List.mem_map.mp hk
    obtain ⟨-, next, hexpand, hnext⟩ := hadded e he
    obtain ⟨a', next', hexpand', hsame⟩ := huniform e.1 k e.2 next hkey hexpand
    refine ⟨a', next', hexpand', fun c hc => ?_⟩
    have hkc : key c ∈ next.map key := hsame ▸ List.mem_map_of_mem hc
    obtain ⟨c', hc', hsamekey⟩ := List.mem_map.mp hkc
    exact hsamekey ▸ hnext c' hc'
  have hreached : ∀ k, Reached expand starts k → key k ∈ keys key out := by
    intro k hk
    induction hk with
    | start hk => exact hstarts _ hk
    | next _ hexpand hc ih =>
      obtain ⟨a, next, hexpand', hnext⟩ := hexpands _ ih
      cases hexpand'.symm.trans hexpand
      exact hnext _ hc
  refine ⟨hgrows.nodup List.nodup_nil, fun e he => ?_, fun k hk => ⟨?_, hreached k hk⟩⟩
  · obtain ⟨hnear, next, hexpand, -⟩ := hadded e he
    exact ⟨hnear, next, hexpand⟩
  · obtain ⟨a, next, hexpand, -⟩ := hexpands k (hreached k hk)
    exact ⟨_, hexpand⟩

/-! ## Where a search ends early -/

/-- Along the nodes that come next, a rank goes down. -/
def Ranked (expand : K → Except E (A × List K)) (rank : K → ℕ) : Prop :=
  ∀ k a next, expand k = .ok (a, next) → ∀ c ∈ next, rank c < rank k

theorem stopped_of_foldlM {f : List (K × A) → K → Except (Stopped E) (List (K × A))} {ks : List K}
    {P : K → Stopped E → Prop} (hf : ∀ k ∈ ks, ∀ out s, f out k = .error s → P k s) {s : Stopped E}
    (h : ks.foldlM f out = .error s) : ∃ k ∈ ks, P k s := by
  induction ks generalizing out with
  | nil => cases h
  | cons k ks ih =>
    rw [List.foldlM_cons] at h
    rw [List.forall_mem_cons] at hf
    cases hk : f out k with
    | error s' =>
      rw [hk] at h
      obtain rfl := Except.error.inj h
      exact ⟨k, List.mem_cons_self, hf.1 out s' hk⟩
    | ok mid =>
      rw [hk] at h
      obtain ⟨k', hk', hP⟩ := ih hf.2 h
      exact ⟨k', List.mem_cons_of_mem _ hk', hP⟩

/-- A visit with enough fuel ends early at a node that fails. -/
theorem stopped_of_visit (hrank : Ranked expand rank) (fuel : ℕ) :
    ∀ k out s, rank k < fuel → visit key expand fuel out k = .error s →
      ∃ e x, s = .failed e ∧ Reached expand [k] x ∧ expand x = .error e := by
  induction fuel with
  | zero => exact fun _ _ _ hlt => absurd hlt (Nat.not_lt_zero _)
  | succ fuel ih =>
    intro k out s hlt h
    rw [visit] at h
    split at h
    · cases h
    · cases hexpand : expand k with
      | error e =>
        rw [hexpand] at h
        exact ⟨e, k, (Except.error.inj h).symm, .start (List.mem_singleton_self k), hexpand⟩
      | ok res =>
        obtain ⟨a, next⟩ := res
        rw [hexpand] at h
        obtain ⟨c, hc, e, x, hs, hx, hfails⟩ := stopped_of_foldlM (P := fun c s =>
            ∃ e x, s = .failed e ∧ Reached expand [c] x ∧ expand x = .error e)
          (fun c hc o s' ho => ih c o s' (Nat.lt_of_lt_of_le (hrank k a next hexpand c hc) (Nat.le_of_lt_succ hlt)) ho) h
        exact ⟨e, x, hs, hx.behind hexpand hc, hfails⟩

/-- **A search with enough fuel ends early just at a node that fails.** -/
theorem stopped_of_search (hrank : Ranked expand rank) (hfuel : ∀ k ∈ starts, rank k < fuel)
    {s : Stopped E} (h : search key expand fuel starts = .error s) :
    ∃ e x, s = .failed e ∧ Reached expand starts x ∧ expand x = .error e := by
  obtain ⟨k, hk, e, x, hs, hx, hfails⟩ := stopped_of_foldlM (P := fun c s =>
      ∃ e x, s = .failed e ∧ Reached expand [c] x ∧ expand x = .error e)
    (fun k hk o s' ho => stopped_of_visit hrank fuel k o s' (hfuel k hk) ho) h
  exact ⟨e, x, hs, hx.trans (.start hk), hfails⟩

/-- A search does not fail just if no node does that can be reached. -/
theorem search_ok_iff (huniform : Uniform key expand) (hrank : Ranked expand rank)
    (hfuel : ∀ k ∈ starts, rank k < fuel) :
    (∃ out, search key expand fuel starts = .ok out) ↔ ∀ k, Reached expand starts k → ∃ res, expand k = .ok res := by
  constructor
  · rintro ⟨out, h⟩ k hk
    exact ((visited_of_search huniform h).2.2 k hk).1
  · intro hall
    cases h : search key expand fuel starts with
    | ok out => exact ⟨out, rfl⟩
    | error s =>
      obtain ⟨e, x, -, hx, hfails⟩ := stopped_of_search hrank hfuel h
      obtain ⟨res, hres⟩ := hall x hx
      rw [hres] at hfails
      cases hfails

end Growth

end DepthFirst
