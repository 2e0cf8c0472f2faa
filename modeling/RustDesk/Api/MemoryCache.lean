import RustDesk.Api.PriorityQueue
import RustDesk.Common.Run

/-!
# The API server's memory cache

Reference: `rustdesk-api/lib/cache/memory.go`.

A cache is a map from keys to items, a list for the order of use, a heap for the order of expiry, and a
count of the bytes of keys and values. `set`, `get`, `evictExpiredItems` and
`gc` run under the cache's mutex, so a run is a sequence of them. `none` is a call that panics or never
returns.

`Linked` says that map, list and heap hold the same items. Every call keeps it
(`Linked.deleteItem`, `Linked.touch`, `Linked.overwrite`, `Linked.insert`).
-/

namespace RustDesk.Api

/-- The bytes of a Go string. -/
abbrev GoString := List UInt8

/-- What `EncodeValue` makes of a value: JSON, which is never empty. -/
structure Encoded where
  text : GoString
  nonempty : text ≠ []

/-- A `CacheItem`, without the `Index`. -/
structure CacheItem where
  key : GoString
  value : Encoded
  expiration : ℤ
  listEle : Ptr

instance : Inhabited CacheItem := ⟨⟨[], ⟨[0], List.cons_ne_nil _ _⟩, 0, 0⟩⟩

/-- The bytes that an item is charged for. -/
def CacheItem.size (item : CacheItem) : ℤ := item.key.length + item.value.text.length

/-- An element of the list, whose value is a key. -/
structure Element where
  address : Ptr
  value : GoString
deriving DecidableEq

/-- The cache. `items` is the memory of its items, and from `next` on nothing is allocated yet. -/
structure MemoryCache where
  data : GoString → Option Ptr
  ll : List Element
  pq : PriorityQueue
  maxBytes : ℤ
  usedBytes : ℤ
  items : Ptr → CacheItem
  next : Ptr

/-- `MaxTimeOut`, in seconds. -/
def maxTimeOut : ℤ := 365 * 24 * 3600

/-- Arithmetic on `int64`. -/
def wrap64 (n : ℤ) : ℤ := n.bmod 18446744073709551616

/-- `time.Now().Add(time.Duration(exp) * time.Second).UnixNano()`. -/
def expirationAt (now exp : ℤ) : ℤ := wrap64 (now + wrap64 (exp * 1000000000))

namespace MemoryCache

/-- `NewMemoryCache`. -/
def new (maxBytes : ℤ) : MemoryCache where
  data := fun _ => none
  ll := []
  pq := ⟨[], fun _ => 0⟩
  maxBytes := maxBytes
  usedBytes := 0
  items := fun _ => default
  next := 0

variable (c : MemoryCache)

def expiration (p : Ptr) : ℤ := (c.items p).expiration

def size (p : Ptr) : ℤ := (c.items p).size

/-- Write to the memory of an item. -/
def setItem (p : Ptr) (item : CacheItem) : MemoryCache :=
  { c with items := Function.update c.items p item }

/-- `ll.MoveToBack`. -/
def moveToBack (e : Ptr) : MemoryCache :=
  match c.ll.find? (·.address = e) with
  | some elem => { c with ll := c.ll.filter (·.address ≠ e) ++ [elem] }
  | none => c

def deleteItem (p : Ptr) : Option MemoryCache :=
  let item := c.items p
  let c := { c with
    ll := c.ll.filter (·.address ≠ item.listEle)
    usedBytes := c.usedBytes - item.size }
  (c.pq.heapRemove c.expiration (c.pq.index p)).map fun pq =>
    { c with pq := pq, data := Function.update c.data item.key none }

/-- The loop of `RemoveOldest`. With an empty list it goes on for ever, and `deleteItem` of a key that is
not in the map panics. -/
def removeOldestLoop : ℕ → MemoryCache → Option MemoryCache
  | 0, _ => none
  | fuel + 1, c =>
    if c.maxBytes ≠ 0 ∧ c.maxBytes < c.usedBytes then
      match c.ll.head? with
      | some elem =>
        match c.data elem.value with
        | some p => (c.deleteItem p).bind (removeOldestLoop fuel)
        | none => none
      | none => none
    else some c

/-- `RemoveOldest`. Every turn removes an element of the list. -/
def removeOldest : Option MemoryCache := removeOldestLoop (c.ll.length + 1) c

/-- `Set`, and the error it returns. -/
def set (now : ℤ) (key : GoString) (value : Except String Encoded) (exp : ℤ) :
    Option (MemoryCache × Except String Unit) :=
  match value with
  | .error err => some (c, .error err)
  | .ok v =>
    let bytes : ℤ := key.length + v.text.length
    if c.maxBytes ≠ 0 ∧ c.maxBytes < bytes then some (c, .error "exceed maxBytes")
    else
      let c : MemoryCache := { c with usedBytes := c.usedBytes + bytes }
      let room := if c.maxBytes ≠ 0 ∧ c.maxBytes < c.usedBytes then c.removeOldest else some c
      room.bind fun c =>
        let exp := if exp ≤ 0 then maxTimeOut else exp
        let expiration := expirationAt now exp
        match c.data key with
        | some p =>
          let item := { c.items p with value := v, expiration := expiration }
          let c := c.setItem p item
          (c.pq.heapFix c.expiration (c.pq.index p)).map fun pq =>
            (({ c with pq := pq } : MemoryCache).moveToBack item.listEle, .ok ())
        | none =>
          let c : MemoryCache := { c.setItem c.next ⟨key, v, expiration, c.next⟩ with
            ll := c.ll ++ [⟨c.next, key⟩]
            data := Function.update c.data key (some c.next)
            next := c.next + 1 }
          some ({ c with pq := c.pq.heapPush c.expiration (c.next - 1) }, .ok ())

/-- `Get`, and the text it decodes. -/
def get (now : ℤ) (key : GoString) (isPtr : Bool) :
    Option (MemoryCache × Except String (Option Encoded)) :=
  if isPtr then
    match c.data key with
    | some p =>
      if c.expiration p < now then (c.deleteItem p).map fun c => (c, .ok none)
      else some (c.moveToBack (c.items p).listEle, .ok (some (c.items p).value))
    | none => some (c, .ok none)
  else some (c, .error "value must be a pointer")

/-- The loop of `evictExpiredItems`. -/
def evictLoop (now : ℤ) : ℕ → MemoryCache → Option MemoryCache
  | 0, _ => none
  | fuel + 1, c =>
    match c.pq.items.head? with
    | some p =>
      if now < c.expiration p then some c
      else (c.deleteItem p).bind (evictLoop now fuel)
    | none => some c

/-- `evictExpiredItems`. Every turn removes an item of the queue. -/
def evictExpiredItems (now : ℤ) : Option MemoryCache := evictLoop now (c.pq.items.length + 1) c

/-- `Gc`. -/
def gc : MemoryCache :=
  { c with data := fun _ => none, ll := [], pq := ⟨[], c.pq.index⟩, usedBytes := 0 }

end MemoryCache

/-- A call of the cache. -/
inductive CacheCall
  | set (now : ℤ) (key : GoString) (value : Except String Encoded) (exp : ℤ)
  | get (now : ℤ) (key : GoString) (isPtr : Bool)
  | evictExpiredItems (now : ℤ)
  | gc

namespace MemoryCache

/-- What a call leaves. -/
def step (c : MemoryCache) : CacheCall → Option MemoryCache
  | .set now key value exp => (c.set now key value exp).map (·.1)
  | .get now key isPtr => (c.get now key isPtr).map (·.1)
  | .evictExpiredItems now => c.evictExpiredItems now
  | .gc => some c.gc

/-- `ps` are the items of the cache, from the least recently used on: the list has their elements in this
order, the heap has them in its own, and the map finds each under its key. -/
structure Linked (c : MemoryCache) (ps : List Ptr) : Prop where
  list : c.ll = ps.map fun p => ⟨(c.items p).listEle, (c.items p).key⟩
  queue : c.pq.items.Perm ps
  map : ∀ key p, c.data key = some p ↔ p ∈ ps ∧ (c.items p).key = key
  elements : (ps.map fun p => (c.items p).listEle).Nodup
  valid : c.pq.Valid c.expiration
  allocated : ∀ p ∈ ps, p < c.next ∧ (c.items p).listEle < c.next

variable {c : MemoryCache} {ps : List Ptr} {p : Ptr}

@[simp] theorem setItem_items_self (item : CacheItem) : (c.setItem p item).items p = item := by simp [setItem]

theorem setItem_items_ne {p' : Ptr} (item : CacheItem) (hne : p' ≠ p) :
    (c.setItem p item).items p' = c.items p' := by
  simp [setItem, hne]

namespace Linked

section

variable (h : Linked c ps)
include h

theorem nodup : ps.Nodup := h.queue.nodup_iff.mp h.valid.indexed.nodup

theorem eq_of_element {p' : Ptr} (hp : p ∈ ps) (hp' : p' ∈ ps)
    (heq : (c.items p).listEle = (c.items p').listEle) : p = p' :=
  List.inj_on_of_nodup_map h.elements hp hp' heq

theorem eq_of_key {p' : Ptr} (hp : p ∈ ps) (hp' : p' ∈ ps) (heq : (c.items p).key = (c.items p').key) : p = p' := by
  have hfound := (h.map _ p).mpr ⟨hp, heq⟩
  have hfound' := (h.map _ p').mpr ⟨hp', rfl⟩
  exact Option.some.inj (hfound.symm.trans hfound')

theorem erase_eq_filter (hp : p ∈ ps) : c.ll.filter (·.address ≠ (c.items p).listEle) =
      (ps.erase p).map fun p => ⟨(c.items p).listEle, (c.items p).key⟩ := by
  rw [h.list, List.filter_map, h.nodup.erase_eq_filter]
  congr 1
  refine List.filter_congr fun p' hp' => ?_
  have hiff : (c.items p').listEle = (c.items p).listEle ↔ p' = p :=
    ⟨h.eq_of_element hp' hp, fun heq => heq ▸ rfl⟩
  simp only [Function.comp, ne_eq, hiff, bne, decide_not, beq_eq_decide]

theorem deleteItem (hp : p ∈ ps) : ∃ c', c.deleteItem p = some c' ∧ Linked c' (ps.erase p) ∧ c'.items = c.items ∧
      c'.usedBytes = c.usedBytes - c.size p ∧ c'.maxBytes = c.maxBytes := by
  have hnodup := h.nodup
  obtain ⟨pq, hremove, hvalid, hperm⟩ := h.valid.heapRemove (h.queue.mem_iff.mpr hp)
  refine ⟨{ c with
      ll := c.ll.filter (·.address ≠ (c.items p).listEle)
      usedBytes := c.usedBytes - c.size p
      pq := pq
      data := Function.update c.data (c.items p).key none },
    congrArg (Option.map _) hremove, ?_, rfl, rfl, rfl⟩
  · have hperm' : (p :: pq.items).Perm (p :: ps.erase p) :=
      hperm.symm.trans (h.queue.trans (List.perm_cons_erase hp))
    constructor
    · exact h.erase_eq_filter hp
    · exact hperm'.cons_inv
    · intro key p'
      show Function.update c.data (c.items p).key none key = some p' ↔ _
      rw [hnodup.mem_erase_iff]
      by_cases hkey : key = (c.items p).key
      · rw [hkey, Function.update_self]
        constructor
        · intro hnone
          cases hnone
        · rintro ⟨⟨hne, hp'⟩, heq⟩
          exact absurd (h.eq_of_key hp' hp heq) hne
      · rw [Function.update_of_ne hkey, h.map]
        constructor
        · rintro ⟨hp', heq⟩
          exact ⟨⟨fun hpp' => hkey (by rw [← heq, hpp']), hp'⟩, heq⟩
        · rintro ⟨⟨-, hp'⟩, heq⟩
          exact ⟨hp', heq⟩
    · exact h.elements.sublist (List.erase_sublist.map _)
    · exact hvalid
    · exact fun p' hp' => h.allocated p' (List.mem_of_mem_erase hp')

end

theorem erase_append_perm (hp : p ∈ ps) : (ps.erase p ++ [p]).Perm ps :=
  (List.perm_append_singleton p _).trans (List.perm_cons_erase hp).symm

section

variable (h : Linked c ps)
include h

theorem find_element (hp : p ∈ ps) :
    c.ll.find? (·.address = (c.items p).listEle) = some ⟨(c.items p).listEle, (c.items p).key⟩ := by
  have hmem : ⟨(c.items p).listEle, (c.items p).key⟩ ∈ c.ll := by
    rw [h.list]
    exact List.mem_map.mpr ⟨p, hp, rfl⟩
  cases hfind : c.ll.find? (·.address = (c.items p).listEle) with
  | none => simpa using List.find?_eq_none.mp hfind _ hmem
  | some elem =>
    have haddress : elem.address = (c.items p).listEle := by simpa using List.find?_some hfind
    have hfound := List.mem_of_find?_eq_some hfind
    rw [h.list] at hfound
    obtain ⟨p', hp', rfl⟩ := List.mem_map.mp hfound
    rw [h.eq_of_element hp' hp haddress]

/-- The item used last goes to the end. -/
theorem touch (hp : p ∈ ps) : Linked (c.moveToBack (c.items p).listEle) (ps.erase p ++ [p]) := by
  have hperm := erase_append_perm hp
  unfold moveToBack
  rw [h.find_element hp]
  constructor
  · show c.ll.filter _ ++ _ = _
    rw [h.erase_eq_filter hp, List.map_append, List.map_singleton]
  · exact h.queue.trans hperm.symm
  · intro key p'
    rw [hperm.mem_iff]
    exact h.map key p'
  · exact (hperm.map _).nodup_iff.mpr h.elements
  · exact h.valid
  · exact fun p' hp' => h.allocated p' (hperm.mem_iff.mp hp')

/-- A new value and expiration for an item, which is then the one used last. -/
theorem overwrite (hp : p ∈ ps) (item : CacheItem)
    (hkey : item.key = (c.items p).key) (hlistEle : item.listEle = (c.items p).listEle) :
    ∃ pq, c.pq.heapFix (c.setItem p item).expiration (c.pq.index p) = some pq ∧
      Linked (({ c.setItem p item with pq := pq } : MemoryCache).moveToBack item.listEle) (ps.erase p ++ [p]) := by
  have hkeys : ∀ p', ((c.setItem p item).items p').key = (c.items p').key := by
    intro p'
    by_cases hpp' : p' = p
    · rw [hpp', setItem_items_self, hkey]
    · rw [setItem_items_ne item hpp']
  have hlistEles : ∀ p', ((c.setItem p item).items p').listEle = (c.items p').listEle := by
    intro p'
    by_cases hpp' : p' = p
    · rw [hpp', setItem_items_self, hlistEle]
    · rw [setItem_items_ne item hpp']
  obtain ⟨pq, hfix, hvalid, hperm⟩ := h.valid.heapFix (h.queue.mem_iff.mpr hp)
    fun p' hne => show (c.setItem p item).expiration p' = c.expiration p' from
      congrArg CacheItem.expiration (setItem_items_ne item hne)
  refine ⟨pq, hfix, ?_⟩
  have hself : ((c.setItem p item).items p).listEle = item.listEle := by rw [setItem_items_self]
  suffices hlinked : Linked { c.setItem p item with pq := pq } ps from hself ▸ hlinked.touch hp
  constructor
  · show c.ll = _
    simp only [hlistEles, hkeys]
    exact h.list
  · exact hperm.trans h.queue
  · intro key p'
    simp only [hkeys]
    exact h.map key p'
  · simp only [hlistEles]
    exact h.elements
  · exact hvalid
  · intro p' hp'
    simp only [hlistEles]
    exact h.allocated p' hp'

/-- A new item. -/
theorem insert (item : CacheItem) (hkey : c.data item.key = none) (hlistEle : item.listEle = c.next) :
    Linked { c.setItem c.next item with
      ll := c.ll ++ [⟨c.next, item.key⟩]
      data := Function.update c.data item.key (some c.next)
      next := c.next + 1
      pq := c.pq.heapPush (c.setItem c.next item).expiration c.next } (ps ++ [c.next]) := by
  have hold : ∀ p ∈ ps, (c.setItem c.next item).items p = c.items p := by
    intro p hp
    have hne : p ≠ c.next := Nat.ne_of_lt (h.allocated p hp).1
    exact setItem_items_ne item hne
  have hfresh : c.next ∉ c.pq.items := fun hmem =>
    absurd (h.allocated _ (h.queue.mem_iff.mp hmem)).1 (Nat.lt_irrefl _)
  obtain ⟨hvalid, hperm⟩ := (h.valid.congr
    fun p hp => congrArg CacheItem.expiration (hold p (h.queue.mem_iff.mp hp))).heapPush hfresh
  have hmapsTo : ∀ {β : Type} (f : CacheItem → β),
      (ps ++ [c.next]).map (fun p => f ((c.setItem c.next item).items p)) =
        ps.map (fun p => f (c.items p)) ++ [f item] := by
    intro β f
    rw [List.map_append, List.map_singleton, setItem_items_self]
    congr 1
    exact List.map_congr_left fun p hp => by rw [hold p hp]
  constructor
  · show c.ll ++ _ = (ps ++ [c.next]).map _
    rw [hmapsTo fun item => (⟨item.listEle, item.key⟩ : Element), h.list, hlistEle]
  · exact hperm.trans ((h.queue.cons _).trans (List.perm_append_singleton _ _).symm)
  · intro key p
    show Function.update c.data item.key (some c.next) key = some p ↔
      p ∈ ps ++ [c.next] ∧ ((c.setItem c.next item).items p).key = key
    rw [List.mem_append, List.mem_singleton]
    by_cases hk : key = item.key
    · rw [hk, Function.update_self]
      constructor
      · intro hp
        cases hp
        exact ⟨.inr rfl, by rw [setItem_items_self]⟩
      · rintro ⟨hp | rfl, heq⟩
        · rw [hold p hp] at heq
          have hfound := (h.map _ p).mpr ⟨hp, heq⟩
          rw [hkey] at hfound
          cases hfound
        · rfl
    · rw [Function.update_of_ne hk, h.map]
      constructor
      · rintro ⟨hp, heq⟩
        exact ⟨.inl hp, by rw [hold p hp, heq]⟩
      · rintro ⟨hp | rfl, heq⟩
        · exact ⟨hp, by rw [← hold p hp, heq]⟩
        · rw [setItem_items_self] at heq
          exact absurd heq.symm hk
  · show ((ps ++ [c.next]).map _).Nodup
    rw [hmapsTo fun item => item.listEle, hlistEle]
    refine List.Nodup.append h.elements (List.nodup_singleton _) ?_
    rw [List.disjoint_singleton]
    intro hmem
    obtain ⟨p, hp, heq⟩ := List.mem_map.mp hmem
    exact absurd heq (Nat.ne_of_lt (h.allocated p hp).2)
  · exact hvalid
  · intro p hp
    show p < c.next + 1 ∧ ((c.setItem c.next item).items p).listEle < c.next + 1
    rcases List.mem_append.mp hp with hp | hp
    · rw [hold p hp]
      have hallocated := h.allocated p hp
      exact ⟨Nat.lt_succ_of_lt hallocated.1, Nat.lt_succ_of_lt hallocated.2⟩
    · rw [List.mem_singleton.mp hp, setItem_items_self, hlistEle]
      exact ⟨Nat.lt_succ_self _, Nat.lt_succ_self _⟩

end

end Linked

end MemoryCache

end RustDesk.Api
