import RustDesk.Api.MemoryCache

/-!
# What the memory cache answers

`lastSet` is the abstract cache: what the last `Set` of every key stored. The cache may have dropped it, but
never answers with anything else.
-/

namespace RustDesk.Api.MemoryCache

variable {c c' : MemoryCache} {maxBytes now : ℤ} {known : GoString → Option (Encoded × ℤ)}

/-- The values and their expirations that are known after a call. -/
def noted (maxBytes : ℤ) (known : GoString → Option (Encoded × ℤ)) : CacheCall → GoString → Option (Encoded × ℤ)
  | .set now key (.ok v) exp =>
    if maxBytes ≠ 0 ∧ maxBytes < key.length + v.text.length then known
    else Function.update known key (some (v, expirationAt now (if exp ≤ 0 then maxTimeOut else exp)))
  | .gc => fun _ => none
  | _ => known

def lastSet (maxBytes : ℤ) (calls : List CacheCall) : GoString → Option (Encoded × ℤ) :=
  calls.foldl (noted maxBytes) fun _ => none

/-- Every item is what is known of its key. -/
def Fresh (c : MemoryCache) (maxBytes : ℤ) (known : GoString → Option (Encoded × ℤ)) : Prop :=
  c.maxBytes = maxBytes ∧ ∀ key p, c.data key = some p →
    p < c.next ∧ (c.items p).key = key ∧ known key = some ((c.items p).value, c.expiration p)

namespace Fresh

section

variable (h : c.Fresh maxBytes known)
include h

theorem deleteItem {p : Ptr} (hdelete : c.deleteItem p = some c') : c'.Fresh maxBytes known := by
  obtain ⟨pq, -, rfl⟩ := Option.map_eq_some_iff.mp hdelete
  refine ⟨h.1, fun key p' hfound => h.2 key p' ?_⟩
  by_cases hkey : key = (c.items p).key
  · simp [hkey] at hfound
  · rwa [← Function.update_of_ne hkey none c.data]

theorem moveToBack (e : Ptr) : (c.moveToBack e).Fresh maxBytes known := by
  unfold MemoryCache.moveToBack
  split <;> exact h

theorem removeOldestLoop {fuel : ℕ} (hloop : removeOldestLoop fuel c = some c') : c'.Fresh maxBytes known := by
  induction fuel generalizing c with
  | zero => cases hloop
  | succ fuel ih =>
    unfold MemoryCache.removeOldestLoop at hloop
    split at hloop
    · split at hloop
      · split at hloop
        · obtain ⟨c₁, hdelete, hrest⟩ := Option.bind_eq_some_iff.mp hloop
          exact ih (h.deleteItem hdelete) hrest
        · cases hloop
      · cases hloop
    · cases hloop
      exact h

theorem evictLoop {fuel : ℕ} (hloop : evictLoop now fuel c = some c') : c'.Fresh maxBytes known := by
  induction fuel generalizing c with
  | zero => cases hloop
  | succ fuel ih =>
    unfold MemoryCache.evictLoop at hloop
    split at hloop
    · split at hloop
      · cases hloop
        exact h
      · obtain ⟨c₁, hdelete, hrest⟩ := Option.bind_eq_some_iff.mp hloop
        exact ih (h.deleteItem hdelete) hrest
    · cases hloop
      exact h

/-- An item written for a key, where no other key has one. -/
theorem setItem {p next : Ptr} {pq : PriorityQueue} {ll : List Element} (item : CacheItem)
    {data : GoString → Option Ptr} (hdata : data = Function.update c.data item.key (some p))
    (hp : p < next ∧ c.next ≤ next) (hother : ∀ key, key ≠ item.key → c.data key ≠ some p) :
    Fresh { c.setItem p item with data := data, pq := pq, ll := ll, next := next } maxBytes
      (Function.update known item.key (some (item.value, item.expiration))) := by
  subst hdata
  refine ⟨h.1, fun key p' hfound => ?_⟩
  by_cases hkey : key = item.key
  · obtain rfl : p = p' := by simpa [hkey] using hfound
    simp [MemoryCache.expiration, hp, hkey]
  · have hfound' : c.data key = some p' := by simpa [hkey] using hfound
    obtain ⟨hlt, hknown⟩ := h.2 key p' hfound'
    have hne : p' ≠ p := fun heq => hother key hkey (heq ▸ hfound')
    refine ⟨Nat.lt_of_lt_of_le hlt hp.2, ?_⟩
    simpa [MemoryCache.expiration, setItem_items_ne item hne, hkey] using hknown

theorem set {key : GoString} {value : Except String Encoded} {exp : ℤ} {res : Except String Unit}
    (hset : c.set now key value exp = some (c', res)) :
    c'.Fresh maxBytes (noted maxBytes known (.set now key value exp)) := by
  cases value with
  | error err =>
    cases hset
    exact h
  | ok v =>
    obtain rfl := h.1
    unfold MemoryCache.set at hset
    unfold noted
    dsimp only at hset ⊢
    generalize expirationAt now (if exp ≤ 0 then maxTimeOut else exp) = expiration at hset ⊢
    split at hset
    · next hbig =>
      cases hset
      rwa [if_pos hbig]
    · next hfits =>
      rw [if_neg hfits]
      obtain ⟨c₁, hroom, hset⟩ := Option.bind_eq_some_iff.mp hset
      replace h : c₁.Fresh c.maxBytes known := by
        split at hroom
        · exact removeOldestLoop (c := { c with usedBytes := c.usedBytes + _ }) h hroom
        · cases hroom
          exact h
      split at hset
      · next p hfound =>
        obtain ⟨pq, -, heq⟩ := Option.map_eq_some_iff.mp hset
        cases heq
        obtain ⟨hlt, rfl, -⟩ := h.2 key p hfound
        refine moveToBack (h.setItem { c₁.items p with value := v, expiration := expiration } ?_ ⟨hlt, le_rfl⟩
          fun key hne hfound' => hne (h.2 key p hfound').2.1.symm) _
        rw [← hfound, Function.update_eq_self]
        rfl
      · cases hset
        exact h.setItem ⟨key, v, expiration, _⟩ rfl ⟨Nat.lt_succ_self _, Nat.le_succ _⟩
          fun key _ hfound => absurd (h.2 key _ hfound).1 (Nat.lt_irrefl _)

theorem step {call : CacheCall} (hstep : c.step call = some c') : c'.Fresh maxBytes (noted maxBytes known call) := by
  cases call with
  | set now key value exp =>
    obtain ⟨⟨c', res⟩, hset, rfl⟩ := Option.map_eq_some_iff.mp hstep
    exact h.set hset
  | get now key isPtr =>
    obtain ⟨⟨c', res⟩, hget, rfl⟩ := Option.map_eq_some_iff.mp hstep
    unfold MemoryCache.get at hget
    split at hget
    · split at hget
      · split at hget
        · obtain ⟨c', hdelete, heq⟩ := Option.map_eq_some_iff.mp hget
          cases heq
          exact h.deleteItem hdelete
        · cases hget
          exact h.moveToBack _
      · cases hget
        exact h
    · cases hget
      exact h
  | evictExpiredItems now => exact h.evictLoop hstep
  | gc =>
    cases hstep
    exact ⟨h.1, fun key p hfound => nomatch hfound⟩

end

end Fresh

/-- **`Get`** answers with what the last `Set` of the key stored, and not after it expired. -/
theorem get_last {calls : List CacheCall} {key : GoString} {v : Encoded}
    (hrun : Run (Steps step) (new maxBytes) calls c) (hget : c.get now key true = some (c', .ok (some v))) :
    ∃ expiration, lastSet maxBytes calls key = some (v, expiration) ∧ now ≤ expiration := by
  have hfresh : c.Fresh maxBytes (lastSet maxBytes calls) := by
    apply hrun.invariant_history
    · intro calls c call c' h hstep
      rw [lastSet, List.foldl_append]
      exact h.step hstep
    · exact ⟨rfl, fun key p hfound => nomatch hfound⟩
  unfold MemoryCache.get at hget
  rw [if_pos rfl] at hget
  split at hget
  · next p hfound =>
    split at hget
    · obtain ⟨c', -, heq⟩ := Option.map_eq_some_iff.mp hget
      cases heq
    · next hlive =>
      cases hget
      exact ⟨_, (hfresh.2 key p hfound).2.2, Int.not_lt.mp hlive⟩
  · cases hget

/-- One byte stored for a year is read back. -/
theorem get_last_stored : ∃ expiration,
    lastSet 0 [.set 0 [107] (.ok ⟨[49], List.cons_ne_nil _ _⟩) 0] [107] =
      some (⟨[49], List.cons_ne_nil _ _⟩, expiration) ∧ 7 ≤ expiration := by
  obtain ⟨c, hc, c', hget⟩ : ∃ c, exec step (new 0) [.set 0 [107] (.ok ⟨[49], List.cons_ne_nil _ _⟩) 0] = some c ∧
    ∃ c', c.get 7 [107] true = some (c', .ok (some ⟨[49], List.cons_ne_nil _ _⟩)) := ⟨_, rfl, _, rfl⟩
  exact get_last (exec_eq_some_iff.mp hc) hget

end RustDesk.Api.MemoryCache
