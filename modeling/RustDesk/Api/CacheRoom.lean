import RustDesk.Api.CacheAccounting

/-!
# When `Set` returns

Reference: `rustdesk-api/lib/cache/memory.go` (`Set`, `RemoveOldest`).

`RemoveOldest` goes on as long as `usedBytes` is above the limit, and can only give back what the stored
items are charged for. What is counted beyond that stays: an overwritten item leaves its old size behind.
`set_returns_iff` says that a `Set` comes back just if this surplus leaves room for the new item.
-/

namespace RustDesk.Api.MemoryCache

variable {c : MemoryCache} {ps : List Ptr} {p : Ptr}

/-- What is counted beyond the stored items. -/
def surplus (c : MemoryCache) : ℤ := c.usedBytes - c.bytes c.pq.items

/-- A `Set` has room: there is no limit, the value is rejected, or it fits beside the surplus. -/
def HasRoom (c : MemoryCache) : CacheCall → Prop
  | .set _ key (.ok v) _ =>
    let bytes : ℤ := key.length + v.text.length
    c.maxBytes = 0 ∨ c.maxBytes < bytes ∨ c.surplus + bytes ≤ c.maxBytes
  | _ => True

/-- The map, the list and the heap hold the same items, and these are all charged for. -/
def Charged (c : MemoryCache) : Prop := ∃ ps, Linked c ps ∧ c.bytes ps ≤ c.usedBytes

theorem Linked.surplus_eq (h : Linked c ps) : c.surplus = c.usedBytes - c.bytes ps := by
  rw [surplus, bytes_perm h.queue]

theorem charged_new (maxBytes : ℤ) : Charged (new maxBytes) := ⟨[], linked_nil rfl rfl fun _ => rfl, le_rfl⟩

/-- A limit below the surplus is never met. -/
theorem removeOldestLoop_none {fuel : ℕ} (h : Linked c ps) (hmax : c.maxBytes ≠ 0)
    (hover : c.maxBytes < c.usedBytes - c.bytes ps) : removeOldestLoop fuel c = none := by
  induction fuel generalizing c ps with
  | zero => rfl
  | succ fuel ih =>
    have hnonneg := c.bytes_nonneg ps
    rw [removeOldestLoop, if_pos ⟨hmax, by omega⟩]
    cases ps with
    | nil =>
      have hempty : c.ll.head? = none := by rw [h.list, List.map_nil, List.head?_nil]
      simp only [hempty]
    | cons p ps =>
      have hfront : c.ll.head? = some ⟨(c.items p).listEle, (c.items p).key⟩ := by
        rw [h.list, List.map_cons, List.head?_cons]
      have hfound := (h.map _ p).mpr ⟨List.mem_cons_self .., rfl⟩
      obtain ⟨c', hdelete, h', hitems, hused, hmax'⟩ := h.deleteItem (List.mem_cons_self ..)
      rw [List.erase_cons_head] at h'
      have hbytes : c'.bytes ps = c.bytes ps := bytes_congr fun p _ => congrFun hitems p
      rw [bytes_cons] at hover
      simp only [hfront, hfound, hdelete, Option.bind_some]
      -- the item takes its own size with it, so the surplus is as it was
      exact ih h' (hmax' ▸ hmax) (by rw [hmax', hused, hbytes]; omega)

/-- **`Set`** returns just if it has room, and keeps the charges. -/
theorem Charged.set (h : Charged c) (now : ℤ) (key : GoString) (value : Except String Encoded) (exp : ℤ) :
    (c.HasRoom (.set now key value exp) → ∃ c' res, c.set now key value exp = some (c', res) ∧ Charged c') ∧
    (¬ c.HasRoom (.set now key value exp) → c.set now key value exp = none) := by
  cases value with
  | error err => exact ⟨fun _ => ⟨c, .error err, rfl, h⟩, fun hnot => absurd trivial hnot⟩
  | ok v =>
    obtain ⟨ps, hlinked, hcharged⟩ := id h
    unfold MemoryCache.set HasRoom
    dsimp only
    generalize expirationAt now (if exp ≤ 0 then maxTimeOut else exp) = expiration
    rw [hlinked.surplus_eq]
    constructor
    · intro hroom
      split
      · exact ⟨c, _, rfl, h⟩
      · next hfits =>
        obtain ⟨c₁, gone, rest, hmade, rfl, h₁, hitems, hused₁, -⟩ :=
          @makeRoom_spec c ps (key.length + v.text.length) hlinked (by omega)
        rw [hmade, Option.bind_some]
        have hrest₁ : c₁.bytes rest = c.bytes rest := bytes_congr fun p _ => congrFun hitems p
        rw [bytes_append] at hcharged
        cases hfound : c₁.data key with
        | some p =>
          obtain ⟨hp, hkey⟩ := (h₁.map _ p).mp hfound
          obtain ⟨pq, hfix, htouch⟩ :=
            h₁.overwrite hp { c₁.items p with value := v, expiration := expiration } rfl rfl
          refine ⟨_, _, congrArg (Option.map _) hfix, _, htouch, ?_⟩
          rw [moveToBack_usedBytes, bytes_congr fun p' _ => congrFun (moveToBack_items _) p',
            bytes_perm (Linked.erase_append_perm hp)]
          show (c₁.setItem p { c₁.items p with value := v, expiration := expiration }).bytes rest ≤ c₁.usedBytes
          rw [bytes_setItem h₁.nodup hp]
          have hpos := c₁.size_pos p
          simp only [CacheItem.size, hkey]
          omega
        | none =>
          refine ⟨_, _, rfl, _, h₁.insert ⟨key, v, expiration, c₁.next⟩ hfound rfl, ?_⟩
          show (c₁.setItem c₁.next ⟨key, v, expiration, c₁.next⟩).bytes _ ≤ c₁.usedBytes
          have hrest : ∀ p ∈ rest, (c₁.setItem c₁.next ⟨key, v, expiration, c₁.next⟩).items p = c₁.items p :=
            fun p hp => setItem_items_ne _ (Nat.ne_of_lt (h₁.allocated p hp).1)
          rw [bytes_append, bytes_congr hrest, bytes_cons, bytes_nil, size, setItem_items_self]
          simp only [CacheItem.size]
          omega
    · intro hnot
      have hnonneg := c.bytes_nonneg ps
      have hmax : c.maxBytes ≠ 0 := fun hzero => hnot (.inl hzero)
      have hfits : ¬ (c.maxBytes ≠ 0 ∧ c.maxBytes < (key.length : ℤ) + v.text.length) :=
        fun hbig => hnot (.inr (.inl hbig.2))
      have hover : c.maxBytes < c.usedBytes + ((key.length : ℤ) + v.text.length) - c.bytes ps := by
        have hsurplus := fun hle => hnot (.inr (.inr hle))
        omega
      have h₀ : Linked { c with usedBytes := c.usedBytes + ((key.length : ℤ) + v.text.length) } ps :=
        ⟨hlinked.list, hlinked.queue, hlinked.map, hlinked.elements, hlinked.valid, hlinked.allocated⟩
      rw [if_neg hfits, if_pos ⟨hmax, by omega⟩]
      have hnone : removeOldest { c with usedBytes := c.usedBytes + ((key.length : ℤ) + v.text.length) } =
          none := removeOldestLoop_none h₀ hmax hover
      rw [hnone]
      rfl

theorem charged_of_keeps {c' : MemoryCache} (hcharged : c.bytes ps ≤ c.usedBytes) (hkeeps : c.Keeps ps c') :
    Charged c' := by
  obtain ⟨ps', h', hsame, -⟩ := hkeeps
  exact ⟨ps', h', by omega⟩

/-- **One call.** A call returns just if it has room, and keeps the charges. -/
theorem Charged.step (h : Charged c) (call : CacheCall) :
    (c.HasRoom call → ∃ c', c.step call = some c' ∧ Charged c') ∧ (¬ c.HasRoom call → c.step call = none) := by
  cases call with
  | set now key value exp =>
    obtain ⟨hreturns, hspins⟩ := h.set now key value exp
    constructor
    · intro hroom
      obtain ⟨c', res, hset, hcharged⟩ := hreturns hroom
      exact ⟨c', congrArg (Option.map Prod.fst) hset, hcharged⟩
    · intro hnot
      exact congrArg (Option.map Prod.fst) (hspins hnot)
  | get now key isPtr =>
    obtain ⟨ps, hlinked, hcharged⟩ := h
    obtain ⟨c', res, hget, hkeeps⟩ := hlinked.get_keeps now key isPtr
    exact ⟨fun _ => ⟨c', congrArg (Option.map Prod.fst) hget, charged_of_keeps hcharged hkeeps⟩,
      fun hnot => absurd trivial hnot⟩
  | evictExpiredItems now =>
    obtain ⟨ps, hlinked, hcharged⟩ := h
    obtain ⟨c', hevict, hkeeps⟩ := hlinked.evictExpiredItems_keeps now
    exact ⟨fun _ => ⟨c', hevict, charged_of_keeps hcharged hkeeps⟩, fun hnot => absurd trivial hnot⟩
  | gc =>
    have hempty : Charged c.gc := ⟨[], linked_nil rfl rfl fun _ => rfl, le_rfl⟩
    exact ⟨fun _ => ⟨c.gc, rfl, hempty⟩, fun hnot => absurd trivial hnot⟩

theorem charged_of_run {maxBytes : ℤ} {calls : List CacheCall}
    (hrun : Run (Steps step) (new maxBytes) calls c) : Charged c := by
  refine hrun.invariant (fun s call t hs hstep => ?_) (charged_new maxBytes)
  by_cases hroom : s.HasRoom call
  · obtain ⟨t', hstep', ht⟩ := (hs.step call).1 hroom
    cases hstep.symm.trans hstep'
    exact ht
  · cases hstep.symm.trans ((hs.step call).2 hroom)

/-- **Whatever was called before**, a call returns just if it has room. -/
theorem set_returns_iff {maxBytes : ℤ} {calls : List CacheCall}
    (hrun : Run (Steps step) (new maxBytes) calls c) (call : CacheCall) :
    (∃ c', c.step call = some c') ↔ c.HasRoom call := by
  have hcharged := charged_of_run hrun
  constructor
  · rintro ⟨c', hstep⟩
    by_contra hnot
    cases hstep.symm.trans ((hcharged.step call).2 hnot)
  · intro hroom
    obtain ⟨c', hstep, -⟩ := (hcharged.step call).1 hroom
    exact ⟨c', hstep⟩

/-! ### A cache of five bytes -/

def setOne : CacheCall := .set 0 [107] (.ok ⟨[49], List.cons_ne_nil _ _⟩) 0

def setThree : CacheCall := .set 0 [106] (.ok ⟨[49, 50, 51], List.cons_ne_nil _ _⟩) 0

/-- After one key was stored twice, two bytes are never given back, and a `Set` of four never returns. -/
theorem set_never_returns :
    ∃ c, Run (Steps step) (new 5) [setOne, setOne] c ∧ c.step setThree = none := by
  obtain ⟨c, hc⟩ : ∃ c, exec step (new 5) [setOne, setOne] = some c := ⟨_, rfl⟩
  refine ⟨c, exec_eq_some_iff.mp hc, ?_⟩
  have hall : exec step (new 5) [setOne, setOne, setThree] = none := rfl
  have hsplit : exec step (new 5) [setOne, setOne, setThree] =
      (exec step (new 5) [setOne, setOne]).bind fun c => c.step setThree := rfl
  rw [hsplit, hc] at hall
  exact hall

/-- Stored once, the key leaves room. -/
theorem set_returns_new : ∃ c, exec step (new 5) [setOne] = some c ∧ ∃ c', c.step setOne = some c' := by
  obtain ⟨c, hc, hroom⟩ : ∃ c, exec step (new 5) [setOne] = some c ∧
      (c.maxBytes = 5 ∧ c.surplus = 0) := ⟨_, rfl, rfl, rfl⟩
  refine ⟨c, hc, (set_returns_iff (exec_eq_some_iff.mp hc) setOne).mpr (.inr (.inr ?_))⟩
  rw [hroom.1, hroom.2]
  decide

end RustDesk.Api.MemoryCache
