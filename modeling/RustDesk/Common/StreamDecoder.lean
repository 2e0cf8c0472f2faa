import Mathlib.Data.List.Basic
import Mathlib.Order.Basic
import Mathlib.Tactic.Common

/-!
# Incremental decoders over a chunked byte stream

A decoder that is polled over a growing buffer: each poll answers with an item, with "not yet", or
with an error, and leaves a state and the rest of the buffer behind. `drain` polls until the decoder
has nothing more to give, `feed` appends chunk after chunk and drains after each.

The laws of `Incremental` say that bytes arriving later never change an answer already given. From
them `feed_eq_drain` derives that the way a stream is cut into chunks is invisible.
-/

variable {σ α β ε : Type*}

/-- A pollable decoder: states `σ`, input symbols `α`, items `β`, errors `ε`. The weight is the
termination measure of repeated polling, so a decoder that yields items forever cannot be built. -/
structure StreamDecoder (σ α β ε : Type*) where
  /-- One poll: the answer, the next state and what is left of the buffer. -/
  poll : σ → List α → Except ε (Option β) × σ × List α
  /-- The measure that every yielded item lowers. -/
  weight : σ → List α → ℕ
  weight_lt : ∀ {s b x s' b'}, poll s b = (.ok (some x), s', b') → weight s' b' < weight s b

namespace StreamDecoder

/-- What a run of polls leaves behind: the items in order, the error that stopped it (if any), the
final state and the unconsumed buffer. -/
@[ext]
structure Outcome (σ α β ε : Type*) where
  items : List β
  error : Option ε
  state : σ
  buffer : List α

/-- Put earlier items in front of an outcome. -/
def Outcome.prepend (xs : List β) (o : Outcome σ α β ε) : Outcome σ α β ε :=
  { o with items := xs ++ o.items }

@[simp] theorem Outcome.prepend_prepend (xs ys : List β) (o : Outcome σ α β ε) :
    (o.prepend ys).prepend xs = o.prepend (xs ++ ys) := by
  simp [Outcome.prepend]

section

variable (xs : List β) (o : Outcome σ α β ε)
include xs o

@[simp] theorem Outcome.prepend_error : (o.prepend xs).error = o.error := rfl

@[simp] theorem Outcome.prepend_state : (o.prepend xs).state = o.state := rfl

@[simp] theorem Outcome.prepend_buffer : (o.prepend xs).buffer = o.buffer := rfl

@[simp] theorem Outcome.prepend_items :
    (o.prepend xs).items = xs ++ o.items := rfl

end

variable (D : StreamDecoder σ α β ε) {b b' : List α} {s s' : σ}

/-- Poll until the decoder answers "not yet" or fails. -/
def drain (s : σ) (b : List α) : Outcome σ α β ε :=
  match _h : D.poll s b with
  | (.ok (some x), s', b') => (drain s' b').prepend [x]
  | (.ok none, s', b') => ⟨[], none, s', b'⟩
  | (.error e, s', b') => ⟨[], some e, s', b'⟩
termination_by D.weight s b
decreasing_by exact D.weight_lt ‹_›

/-- Append the chunks one after another, draining after each and stopping at the first error. -/
def feed (s : σ) (b : List α) : List (List α) → Outcome σ α β ε
  | [] => ⟨[], none, s, b⟩
  | c :: cs =>
    let o := D.drain s (b ++ c)
    match o.error with
    | some _ => o
    | none => (feed o.state o.buffer cs).prepend o.items

variable {D}

theorem drain_item {x : β} (h : D.poll s b = (.ok (some x), s', b')) : D.drain s b = (D.drain s' b').prepend [x] := by
  rw [drain]
  split <;> simp_all

theorem drain_wait (h : D.poll s b = (.ok none, s', b')) : D.drain s b = ⟨[], none, s', b'⟩ := by
  rw [drain]
  split <;> simp_all

theorem drain_fail {e : ε} (h : D.poll s b = (.error e, s', b')) : D.drain s b = ⟨[], some e, s', b'⟩ := by
  rw [drain]
  split <;> simp_all

/-! ## Decoders that never take an answer back -/

/-- On the states of `I` (which polling keeps), an answer does not depend on bytes that have not
arrived yet: an item or an error stays what it is, and after "not yet" the decoder may be polled
again from where it stopped. -/
structure Incremental (D : StreamDecoder σ α β ε) (I : σ → Prop) : Prop where
  keeps : ∀ {s b r s' b'}, I s → D.poll s b = (r, s', b') → I s'
  item : ∀ {s b x s' b'} (m : List α), I s → D.poll s b = (.ok (some x), s', b') →
    D.poll s (b ++ m) = (.ok (some x), s', b' ++ m)
  wait : ∀ {s b s' b'} (m : List α), I s → D.poll s b = (.ok none, s', b') →
    D.poll s (b ++ m) = D.poll s' (b' ++ m)
  fail : ∀ {s b e s' b'} (m : List α), I s → D.poll s b = (.error e, s', b') →
    D.poll s (b ++ m) = (.error e, s', b' ++ m)

variable {I : σ → Prop}

section

variable (hD : Incremental D I) (hs : I s)
include hD hs

/-- After "not yet", draining later bytes may start from the stored state. -/
theorem Incremental.drain_append_wait (h : D.poll s b = (.ok none, s', b')) (m : List α) :
    D.drain s (b ++ m) = D.drain s' (b' ++ m) := by
  have hpoll := hD.wait m hs h
  rcases hp : D.poll s' (b' ++ m) with ⟨_ | ⟨_ | x⟩, t, c⟩ <;> rw [hp] at hpoll
  · rw [drain_fail hp, drain_fail hpoll]
  · rw [drain_wait hp, drain_wait hpoll]
  · rw [drain_item hp, drain_item hpoll]

/-- Draining keeps the invariant of the decoder's states. -/
theorem Incremental.drain_keeps (b : List α) : I (D.drain s b).state := by
  induction s, b using drain.induct D with
  | case1 s b x s' b' h ih =>
    rw [drain_item h]
    exact ih (hD.keeps hs h)
  | case2 s b s' b' h =>
    rw [drain_wait h]
    exact hD.keeps hs h
  | case3 s b e s' b' h =>
    rw [drain_fail h]
    exact hD.keeps hs h

/-- A drain that did not fail resumes, on more input, from the configuration it left. -/
theorem Incremental.drain_append (b m : List α) (hok : (D.drain s b).error = none) : D.drain s (b ++ m) =
      (D.drain (D.drain s b).state ((D.drain s b).buffer ++ m)).prepend (D.drain s b).items := by
  induction s, b using drain.induct D with
  | case1 s b x s' b' h ih =>
    rw [drain_item h] at hok ⊢
    rw [drain_item (hD.item m hs h), ih (hD.keeps hs h) hok]
    simp
  | case2 s b s' b' h =>
    rw [hD.drain_append_wait hs h, drain_wait h]
    rfl
  | case3 s b e s' b' h =>
    rw [drain_fail h] at hok
    cases hok

/-- An error already met is met again when more input follows. -/
theorem Incremental.drain_append_error (b m : List α) (herr : (D.drain s b).error ≠ none) :
    (D.drain s (b ++ m)).error = (D.drain s b).error := by
  induction s, b using drain.induct D with
  | case1 s b x s' b' h ih =>
    rw [drain_item h] at herr ⊢
    rw [drain_item (hD.item m hs h)]
    exact ih (hD.keeps hs h) herr
  | case2 s b s' b' h =>
    rw [drain_wait h] at herr
    exact absurd rfl herr
  | case3 s b e s' b' h => rw [drain_fail h, drain_fail (hD.fail m hs h)]

/-- A drain that did not fail leaves a configuration with nothing to give. -/
theorem Incremental.drain_idle (b : List α) (hok : (D.drain s b).error = none) :
    D.poll (D.drain s b).state (D.drain s b).buffer
      = (.ok none, (D.drain s b).state, (D.drain s b).buffer) := by
  induction s, b using drain.induct D with
  | case1 s b x s' b' h ih =>
    rw [drain_item h] at hok ⊢
    exact ih (hD.keeps hs h) hok
  | case2 s b s' b' h =>
    have hagain := hD.wait [] hs h
    rw [List.append_nil, List.append_nil, h] at hagain
    rw [drain_wait h]
    exact hagain.symm
  | case3 s b e s' b' h =>
    rw [drain_fail h] at hok
    cases hok

/-- **Cutting is invisible.** From a configuration with nothing to give, feeding chunk by chunk a
stream that drains without error is draining the whole stream at once. -/
theorem Incremental.feed_eq_drain (hidle : D.poll s b = (.ok none, s, b)) (cs : List (List α))
    (hok : (D.drain s (b ++ cs.flatten)).error = none) :
    D.feed s b cs = D.drain s (b ++ cs.flatten) := by
  induction cs generalizing s b with
  | nil =>
    rw [List.flatten_nil, List.append_nil, drain_wait hidle]
    rfl
  | cons c cs ih =>
    rw [List.flatten_cons, ← List.append_assoc] at hok ⊢
    have hfirst : (D.drain s (b ++ c)).error = none := by
      by_contra hne
      rw [hD.drain_append_error hs _ _ hne] at hok
      exact hne hok
    rw [hD.drain_append hs _ _ hfirst] at hok ⊢
    have hstate := hD.drain_keeps hs (b ++ c)
    simp only [feed, hfirst]
    rw [ih hstate (hD.drain_idle hs _ hfirst) hok]

end

end StreamDecoder
