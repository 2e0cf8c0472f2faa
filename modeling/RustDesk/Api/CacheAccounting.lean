import Mathlib.Algebra.BigOperators.Group.List.Basic
import Mathlib.Algebra.Ring.Int.Defs
import RustDesk.Api.MemoryCache

/-!
# What the memory cache counts

`usedBytes` is the size of what is stored as long as no `Set` overwrites an item: the new key and value
are added, the old ones never subtracted. What makes room for the new value may evict the old item
first, which is then no overwriting. `accounted_iff` is about any calls on any cache,
`overwritten_twice_counted` is the shortest run that loses count.
-/

namespace RustDesk.Api.MemoryCache

variable {c : MemoryCache} {ps : List Ptr} {p : Ptr}

/-- The bytes of some items. -/
def bytes (c : MemoryCache) (ps : List Ptr) : ℤ := (ps.map c.size).sum

/-- The map, the list and the heap hold the same items, `usedBytes` is their size, and it is within the
limit if there is one. -/
def Accounted (c : MemoryCache) : Prop :=
  ∃ ps, Linked c ps ∧ c.usedBytes = c.bytes ps ∧ (c.maxBytes ≠ 0 → c.usedBytes ≤ c.maxBytes)

/-- The bytes of the items used less recently than a key. -/
def older (c : MemoryCache) (key : GoString) : ℤ :=
  ((c.ll.takeWhile (·.value ≠ key)).map fun elem => ((c.data elem.value).map c.size).getD 0).sum

/-- A `Set` overwrites nothing: the key is new, the value is rejected, or the old item is evicted to make
room. -/
def Spares (c : MemoryCache) : CacheCall → Prop
  | .set _ key (.ok v) _ =>
    let bytes : ℤ := key.length + v.text.length
    c.data key = none ∨ c.maxBytes ≠ 0 ∧ c.maxBytes < bytes ∨
      c.maxBytes ≠ 0 ∧ c.maxBytes < c.usedBytes + bytes - c.older key
  | _ => True

/-! ## Bytes -/

@[simp] theorem bytes_nil : c.bytes [] = 0 := rfl

@[simp] theorem bytes_cons : c.bytes (p :: ps) = c.size p + c.bytes ps := by simp [bytes]

@[simp] theorem bytes_append (ps ps' : List Ptr) : c.bytes (ps ++ ps') = c.bytes ps + c.bytes ps' := by
  simp [bytes]

theorem bytes_perm {ps ps' : List Ptr} (h : ps.Perm ps') : c.bytes ps = c.bytes ps' := (h.map _).sum_eq

theorem bytes_congr {c' : MemoryCache} (h : ∀ p ∈ ps, c'.items p = c.items p) : c'.bytes ps = c.bytes ps := by
  unfold bytes size
  rw [List.map_congr_left fun p hp => by rw [h p hp]]

theorem size_pos (c : MemoryCache) (p : Ptr) : 0 < c.size p := by
  have hvalue := List.length_pos_iff.mpr (c.items p).value.nonempty
  unfold size CacheItem.size
  omega

theorem bytes_nonneg (c : MemoryCache) (ps : List Ptr) : 0 ≤ c.bytes ps := by
  induction ps with
  | nil => exact Int.le_refl 0
  | cons p ps ih =>
    have hpos := c.size_pos p
    rw [bytes_cons]
    omega

theorem bytes_setItem (hnodup : ps.Nodup) (hp : p ∈ ps) (item : CacheItem) :
    (c.setItem p item).bytes ps = c.bytes ps - c.size p + item.size := by
  have hperm := List.perm_cons_erase hp
  have hothers : (c.setItem p item).bytes (ps.erase p) = c.bytes (ps.erase p) :=
    bytes_congr fun p' hp' => setItem_items_ne item (hnodup.mem_erase_iff.mp hp').1
  have hnew : (c.setItem p item).size p = item.size := by rw [size, setItem_items_self]
  rw [bytes_perm hperm, bytes_perm hperm, bytes_cons, bytes_cons, hothers, hnew]
  omega

@[simp] theorem moveToBack_items (e : Ptr) : (c.moveToBack e).items = c.items := by
  unfold moveToBack
  split <;> rfl

@[simp] theorem moveToBack_usedBytes (e : Ptr) : (c.moveToBack e).usedBytes = c.usedBytes := by
  unfold moveToBack
  split <;> rfl

@[simp] theorem moveToBack_maxBytes (e : Ptr) : (c.moveToBack e).maxBytes = c.maxBytes := by
  unfold moveToBack
  split <;> rfl

theorem Linked.used_of_accounted (h : Linked c ps) (hacc : Accounted c) : c.usedBytes = c.bytes ps := by
  obtain ⟨ps', h', hused, -⟩ := hacc
  rw [hused, bytes_perm (h'.queue.symm.trans h.queue)]

theorem Linked.older_eq {before after : List Ptr} (h : Linked c (before ++ p :: after)) :
    c.older (c.items p).key = c.bytes before := by
  have hkeep : ∀ p' ∈ before, (c.items p').key ≠ (c.items p).key := by
    intro p' hp' heq
    have hsame := h.eq_of_key (List.mem_append_left _ hp') (by simp) heq
    have hnodup := h.nodup
    rw [hsame] at hp'
    exact (List.nodup_append.mp hnodup).2.2 p hp' p (List.mem_cons_self ..) rfl
  unfold older
  rw [h.list, List.map_append, List.map_cons, List.takeWhile_append_of_pos (by simpa using hkeep),
    List.takeWhile_cons_of_neg (by simp), List.append_nil, List.map_map]
  unfold bytes
  congr 1
  refine List.map_congr_left fun p' hp' => ?_
  have hfound := (h.map _ p').mpr ⟨List.mem_append_left _ hp', rfl⟩
  simp [Function.comp, hfound]

/-! ## Making room -/

/-- **`RemoveOldest`** evicts from the front of the list, no more items than needed. It returns if the
limit can be met at all. -/
theorem removeOldestLoop_spec {fuel : ℕ} (h : Linked c ps) (hmax : c.maxBytes ≠ 0)
    (hfits : c.usedBytes - c.bytes ps ≤ c.maxBytes) (hfuel : ps.length < fuel) :
    ∃ c' gone rest, removeOldestLoop fuel c = some c' ∧ ps = gone ++ rest ∧ Linked c' rest ∧
      c'.items = c.items ∧ c'.usedBytes = c.usedBytes - c.bytes gone ∧ c'.maxBytes = c.maxBytes ∧
      c'.usedBytes ≤ c.maxBytes ∧
      ∀ before p after, gone = before ++ p :: after → c.maxBytes < c.usedBytes - c.bytes before := by
  induction ps generalizing c fuel with
  | nil =>
    obtain ⟨fuel, rfl⟩ : ∃ n, fuel = n + 1 := ⟨fuel - 1, by omega⟩
    rw [bytes_nil, Int.sub_zero] at hfits
    rw [removeOldestLoop, if_neg (by omega)]
    exact ⟨c, [], [], rfl, rfl, h, rfl, by simp, rfl, hfits, by simp⟩
  | cons p ps ih =>
    obtain ⟨fuel, rfl⟩ : ∃ n, fuel = n + 1 := ⟨fuel - 1, by omega⟩
    rw [removeOldestLoop]
    split
    · next hover =>
      obtain ⟨c₁, hdelete, h₁, hitems, hused, hmax₁⟩ := h.deleteItem (List.mem_cons_self ..)
      rw [List.erase_cons_head] at h₁
      have hbytes : ∀ ps, c₁.bytes ps = c.bytes ps := fun ps => bytes_congr fun p _ => congrFun hitems p
      obtain ⟨c', gone, rest, hloop, rfl, h', hitems', hused', hmax', hlimit, hneeded⟩ :=
        ih h₁ (by rwa [hmax₁]) (by rw [hbytes, hused, hmax₁]; rw [bytes_cons] at hfits; omega)
          (Nat.lt_of_succ_lt_succ hfuel)
      have hfront : c.ll.head? = some ⟨(c.items p).listEle, (c.items p).key⟩ := by
        rw [h.list, List.map_cons, List.head?_cons]
      have hfound := (h.map _ p).mpr ⟨List.mem_cons_self .., rfl⟩
      refine ⟨c', p :: gone, rest, ?_, rfl, h', hitems'.trans hitems, ?_, hmax'.trans hmax₁, hmax₁ ▸ hlimit, ?_⟩
      · simp only [hfront, hfound, hdelete, Option.bind_some]
        exact hloop
      · rw [hused', hused, hbytes, bytes_cons]
        omega
      · intro before p' after hsplit
        cases before with
        | nil =>
          rw [bytes_nil, Int.sub_zero]
          exact hover.2
        | cons q before =>
          obtain ⟨rfl, hsplit'⟩ := List.cons.inj hsplit
          have := hneeded before p' after hsplit'
          rw [hmax₁, hused, hbytes] at this
          rw [bytes_cons]
          omega
    · next hunder => refine ⟨c, [], p :: ps, rfl, rfl, h, rfl, by simp, rfl, by omega, by simp⟩

/-- The room that a `Set` makes before it stores anything, if what is counted beyond the items leaves any. -/
theorem makeRoom_spec {bytes : ℤ} (h : Linked c ps)
    (hfits : c.maxBytes ≠ 0 → c.usedBytes + bytes - c.bytes ps ≤ c.maxBytes) :
    ∃ c' gone rest, (if c.maxBytes ≠ 0 ∧ c.maxBytes < c.usedBytes + bytes then
        removeOldest { c with usedBytes := c.usedBytes + bytes }
        else some { c with usedBytes := c.usedBytes + bytes }) = some c' ∧
      ps = gone ++ rest ∧ Linked c' rest ∧ c'.items = c.items ∧
      c'.usedBytes = c.usedBytes + bytes - c.bytes gone ∧ c'.maxBytes = c.maxBytes ∧
      (c.maxBytes ≠ 0 → c'.usedBytes ≤ c.maxBytes) ∧
      ∀ before p after, gone = before ++ p :: after →
        c.maxBytes ≠ 0 ∧ c.maxBytes < c.usedBytes + bytes - c.bytes before := by
  have h₀ : Linked { c with usedBytes := c.usedBytes + bytes } ps :=
    ⟨h.list, h.queue, h.map, h.elements, h.valid, h.allocated⟩
  split
  · next hover =>
    have hlen : ps.length < c.ll.length + 1 := by
      rw [h.list, List.length_map]
      exact Nat.lt_succ_self _
    obtain ⟨c', gone, rest, hloop, rfl, h', hitems, hused', hmax, hlimit, hneeded⟩ :=
      removeOldestLoop_spec h₀ hover.1 (hfits hover.1) hlen
    exact ⟨c', gone, rest, hloop, rfl, h', hitems, hused', hmax, fun _ => hlimit,
      fun before p after hsplit => ⟨hover.1, hneeded before p after hsplit⟩⟩
  · next hunder =>
    refine ⟨_, [], ps, rfl, rfl, h₀, rfl, (Int.sub_zero _).symm, rfl, fun hmax => ?_, by simp⟩
    show c.usedBytes + bytes ≤ c.maxBytes
    omega

/-! ## The calls -/

/-- **`Set`** returns, and keeps count if and only if it overwrites nothing. -/
theorem Accounted.set (h : Accounted c) (now : ℤ) (key : GoString) (value : Except String Encoded) (exp : ℤ) :
    ∃ c' res, c.set now key value exp = some (c', res) ∧ (Accounted c' ↔ c.Spares (.set now key value exp)) := by
  cases value with
  | error err => exact ⟨c, .error err, rfl, iff_of_true h trivial⟩
  | ok v =>
    unfold MemoryCache.set Spares
    dsimp only
    generalize expirationAt now (if exp ≤ 0 then maxTimeOut else exp) = expiration
    split
    · next hbig => exact ⟨c, _, rfl, iff_of_true h (.inr (.inl hbig))⟩
    · next hfits =>
      obtain ⟨ps, hlinked, hused, hlimit⟩ := h
      obtain ⟨c₁, gone, rest, hroom, rfl, h₁, hitems, hused₁, hmax₁, hlimit₁, hneeded⟩ :=
        @makeRoom_spec c ps (key.length + v.text.length) hlinked (by omega)
      have hused₁ : c₁.usedBytes = c.bytes rest + (key.length + v.text.length) := by
        rw [bytes_append] at hused
        omega
      rw [hroom, Option.bind_some]
      have hbytes : ∀ ps, c₁.bytes ps = c.bytes ps := fun ps => bytes_congr fun p _ => congrFun hitems p
      have hkeys : ∀ p, (c₁.items p).key = (c.items p).key := fun p => by rw [hitems]
      cases hfound : c₁.data key with
      | some p =>
        -- the item is still there, and its old size stays counted
        obtain ⟨hp, hkey⟩ := (h₁.map _ p).mp hfound
        obtain ⟨pq, hfix, htouch⟩ :=
          h₁.overwrite hp { c₁.items p with value := v, expiration := expiration } rfl rfl
        refine ⟨_, _, congrArg (Option.map _) hfix, iff_of_false (fun hacc => ?_) ?_⟩
        · have hcount := htouch.used_of_accounted hacc
          rw [moveToBack_usedBytes, bytes_congr fun p' _ => congrFun (moveToBack_items _) p',
            bytes_perm (Linked.erase_append_perm hp)] at hcount
          have hcount' : c₁.usedBytes = (c₁.setItem p
            { c₁.items p with value := v, expiration := expiration }).bytes rest := hcount
          rw [bytes_setItem h₁.nodup hp, hused₁, hbytes, ← hkey] at hcount'
          have hpos := c₁.size_pos p
          unfold CacheItem.size at hcount'
          dsimp only at hcount'
          omega
        · rintro (hnone | hbig | hway)
          · rw [hkeys] at hkey
            rw [(hlinked.map key p).mpr ⟨List.mem_append_right _ hp, hkey⟩] at hnone
            cases hnone
          · exact hfits hbig
          · obtain ⟨before, after, rfl⟩ := List.append_of_mem hp
            rw [← List.append_assoc] at hlinked
            have holder := hlinked.older_eq
            rw [← hkeys, hkey, bytes_append] at holder
            have hnonneg := c.bytes_nonneg before
            have hlimit' := hlimit₁ hway.1
            rw [bytes_append] at hused
            omega
      | none =>
        have hinsert := h₁.insert ⟨key, v, expiration, c₁.next⟩ hfound rfl
        refine ⟨_, _, rfl, iff_of_true ⟨_, hinsert, ?_, ?_⟩ ?_⟩
        · show c₁.usedBytes = (c₁.setItem c₁.next ⟨key, v, expiration, c₁.next⟩).bytes _
          have hrest : ∀ p ∈ rest, (c₁.setItem c₁.next ⟨key, v, expiration, c₁.next⟩).items p = c₁.items p :=
            fun p hp => setItem_items_ne _ (Nat.ne_of_lt (h₁.allocated p hp).1)
          rw [bytes_append, bytes_congr hrest, bytes_cons, bytes_nil, size, setItem_items_self, hused₁,
            hbytes, Int.add_zero]
          rfl
        · intro hmax
          show c₁.usedBytes ≤ c₁.maxBytes
          rw [hmax₁]
          exact hlimit₁ (hmax₁ ▸ hmax)
        · cases hold : c.data key with
          | none => exact .inl rfl
          | some p =>
            obtain ⟨hp, hkey⟩ := (hlinked.map _ p).mp hold
            rcases List.mem_append.mp hp with hgone | hrest
            · obtain ⟨before, after, rfl⟩ := List.append_of_mem hgone
              rw [List.append_assoc] at hlinked
              have holder := hlinked.older_eq
              rw [hkey] at holder
              rw [holder]
              exact .inr (.inr (hneeded before p after rfl))
            · rw [(h₁.map key p).mpr ⟨hrest, (hkeys p).trans hkey⟩] at hfound
              cases hfound

/-- After a call that stores nothing, what is counted beyond the items is as it was. -/
def Keeps (c : MemoryCache) (ps : List Ptr) (c' : MemoryCache) : Prop :=
  ∃ ps', Linked c' ps' ∧ c'.usedBytes - c'.bytes ps' = c.usedBytes - c.bytes ps ∧ c'.usedBytes ≤ c.usedBytes ∧
    c'.maxBytes = c.maxBytes

theorem Accounted.keeps {c' : MemoryCache} (h : Accounted c) (hlinked : Linked c ps) (hkeeps : c.Keeps ps c') :
    Accounted c' := by
  have hused := hlinked.used_of_accounted h
  obtain ⟨ps', hlinked', hsame, hle, hmax⟩ := hkeeps
  obtain ⟨-, -, -, hlimit⟩ := h
  refine ⟨ps', hlinked', by omega, fun hmax' => ?_⟩
  have := hlimit (hmax ▸ hmax')
  omega

section

variable (h : Linked c ps)
include h

/-- Deleting an item subtracts its size. -/
theorem Linked.deleteItem_keeps (hp : p ∈ ps) : ∃ c', c.deleteItem p = some c' ∧ Linked c' (ps.erase p) ∧
      c'.usedBytes - c'.bytes (ps.erase p) = c.usedBytes - c.bytes ps ∧ c'.usedBytes ≤ c.usedBytes ∧
      c'.maxBytes = c.maxBytes := by
  obtain ⟨c', hdelete, h', hitems, hused, hmax⟩ := h.deleteItem hp
  have hbytes : c.bytes ps = c.size p + c.bytes (ps.erase p) := by
    rw [bytes_perm (List.perm_cons_erase hp), bytes_cons]
  have hsame : c'.bytes (ps.erase p) = c.bytes (ps.erase p) := bytes_congr fun p _ => congrFun hitems p
  have hpos := c.size_pos p
  exact ⟨c', hdelete, h', by omega, by omega, hmax⟩

theorem Linked.get_keeps (now : ℤ) (key : GoString) (isPtr : Bool) :
    ∃ c' res, c.get now key isPtr = some (c', res) ∧ c.Keeps ps c' := by
  have hsame : c.Keeps ps c := ⟨ps, h, rfl, le_rfl, rfl⟩
  unfold MemoryCache.get
  split
  · cases hfound : c.data key with
    | none => exact ⟨c, _, rfl, hsame⟩
    | some p =>
      obtain ⟨hp, -⟩ := (h.map _ p).mp hfound
      dsimp only
      split
      · obtain ⟨c', hdelete, hkeeps⟩ := h.deleteItem_keeps hp
        rw [hdelete]
        exact ⟨c', _, rfl, _, hkeeps⟩
      · refine ⟨_, _, rfl, _, h.touch hp, ?_, ?_, moveToBack_maxBytes _⟩
        · rw [moveToBack_usedBytes, bytes_congr fun p' _ => congrFun (moveToBack_items _) p',
            bytes_perm (Linked.erase_append_perm hp)]
        · rw [moveToBack_usedBytes]
  · exact ⟨c, _, rfl, hsame⟩

theorem Linked.evictLoop_keeps {fuel : ℕ} (now : ℤ) (hfuel : ps.length < fuel) :
    ∃ c', evictLoop now fuel c = some c' ∧ c.Keeps ps c' := by
  induction fuel generalizing c ps with
  | zero => omega
  | succ fuel ih =>
    have hsame : c.Keeps ps c := ⟨ps, h, rfl, le_rfl, rfl⟩
    rw [MemoryCache.evictLoop]
    split
    · next p hhead =>
      split
      · exact ⟨c, rfl, hsame⟩
      · have hp := h.queue.mem_iff.mp (List.mem_of_head? hhead)
        obtain ⟨c₁, hdelete, h₁, hsame₁, hle₁, hmax₁⟩ := h.deleteItem_keeps hp
        have hlen := List.length_erase_of_mem hp
        have hpos := List.length_pos_of_mem hp
        obtain ⟨c', hevict, ps', h', hsame', hle', hmax'⟩ := ih h₁ (by omega)
        rw [hdelete, Option.bind_some]
        exact ⟨c', hevict, ps', h', hsame'.trans hsame₁, hle'.trans hle₁, hmax'.trans hmax₁⟩
    · exact ⟨c, rfl, hsame⟩

theorem Linked.evictExpiredItems_keeps (now : ℤ) : ∃ c', c.evictExpiredItems now = some c' ∧ c.Keeps ps c' :=
  h.evictLoop_keeps now (h.queue.length_eq ▸ Nat.lt_succ_self _)

end

theorem linked_nil (hll : c.ll = []) (hpq : c.pq.items = []) (hdata : ∀ key, c.data key = none) : Linked c [] where
  list := hll
  queue := hpq ▸ .refl _
  map := by simp [hdata]
  elements := List.nodup_nil
  valid := ⟨fun i p hp => by simp [hpq] at hp, fun i _ hi => by simp [hpq] at hi⟩
  allocated := by simp

/-- **One call.** From an accounted cache every call returns, and keeps count if and only if it overwrites
nothing. -/
theorem Accounted.step (h : Accounted c) (call : CacheCall) :
    ∃ c', c.step call = some c' ∧ (Accounted c' ↔ c.Spares call) := by
  cases call with
  | set now key value exp =>
    obtain ⟨c', res, hset, hiff⟩ := h.set now key value exp
    exact ⟨c', congrArg (Option.map Prod.fst) hset, hiff⟩
  | get now key isPtr =>
    obtain ⟨ps, hlinked, -⟩ := id h
    obtain ⟨c', res, hget, hkeeps⟩ := hlinked.get_keeps now key isPtr
    exact ⟨c', congrArg (Option.map Prod.fst) hget, iff_of_true (h.keeps hlinked hkeeps) trivial⟩
  | evictExpiredItems now =>
    obtain ⟨ps, hlinked, -⟩ := id h
    obtain ⟨c', hevict, hkeeps⟩ := hlinked.evictExpiredItems_keeps now
    exact ⟨c', hevict, iff_of_true (h.keeps hlinked hkeeps) trivial⟩
  | gc =>
    obtain ⟨ps, -, hused, hlimit⟩ := h
    refine ⟨c.gc, rfl, iff_of_true ⟨[], linked_nil rfl rfl fun _ => rfl, rfl, fun hmax => ?_⟩ trivial⟩
    have := hlimit hmax
    have := c.bytes_nonneg ps
    show 0 ≤ c.maxBytes
    omega

theorem accounted_new_iff {maxBytes : ℤ} : Accounted (new maxBytes) ↔ 0 ≤ maxBytes := by
  have hlinked : Linked (new maxBytes) [] := linked_nil rfl rfl fun _ => rfl
  constructor
  · rintro ⟨ps, -, -, hlimit⟩
    change maxBytes ≠ 0 → 0 ≤ maxBytes at hlimit
    omega
  · exact fun hmax => ⟨[], hlinked, rfl, fun _ => hmax⟩

/-- **What the cache counts.** A new cache keeps count through a run of calls if and only if its limit is
not negative and no `Set` of the run overwrites an item. -/
theorem accounted_iff {maxBytes : ℤ} {calls : List CacheCall} :
    Accounted (new maxBytes) ∧
        Run (fun c call c' => step c call = some c' ∧ Accounted c') (new maxBytes) calls c ↔
      0 ≤ maxBytes ∧ Run (Only Spares (Steps step)) (new maxBytes) calls c := by
  rw [accounted_new_iff, and_congr_right_iff]
  intro hmax
  refine Run.good_iff_only (fun _ _ _ (_ : True) _ => trivial) (fun c call c' _ h hstep => ?_) trivial
    (accounted_new_iff.mpr hmax)
  obtain ⟨c'', hstep', hiff⟩ := Accounted.step h call
  cases hstep.symm.trans hstep'
  exact hiff

/-- A key stored twice is counted twice. In a cache of five bytes the next `Set` then evicts all there is,
still finds more in use than allowed, and never returns. -/
theorem overwritten_twice_counted :
    let one : CacheCall := .set 0 [107] (.ok ⟨[49], List.cons_ne_nil _ _⟩) 0
    let three : CacheCall := .set 0 [106] (.ok ⟨[49, 50, 51], List.cons_ne_nil _ _⟩) 0
    (∃ c, exec step (new 0) [one, one] = some c ∧ c.usedBytes = 4 ∧ c.pq.items = [0] ∧
        c.bytes [0] = 2 ∧ ¬ Accounted c) ∧
      exec step (new 5) [one, one, three] = none := by
  refine ⟨?_, rfl⟩
  obtain ⟨c, hexec, hused, hitems, hbytes⟩ : ∃ c, exec step (new 0)
      [.set 0 [107] (.ok ⟨[49], List.cons_ne_nil _ _⟩) 0,
        .set 0 [107] (.ok ⟨[49], List.cons_ne_nil _ _⟩) 0] = some c ∧
      c.usedBytes = 4 ∧ c.pq.items = [0] ∧ c.bytes [0] = 2 := ⟨_, rfl, rfl, rfl, rfl⟩
  refine ⟨c, hexec, hused, hitems, hbytes, ?_⟩
  rintro ⟨ps, hlinked, hcount, -⟩
  rw [hused, ← bytes_perm (hitems ▸ hlinked.queue), hbytes] at hcount
  omega

end RustDesk.Api.MemoryCache
