import Mathlib.Data.Set.Basic
import Mathlib.Tactic.Common

/-!
# Symbolic cryptography

Messages are terms over secrets named by `N`; `sign`, `box` and `secretbox` are constructors, so they
are ideal. `Derives S t` says that an attacker who saw `S` can compute `t`.

`Safe` is the invariant of a protocol's messages: no secret outside `Public` is given away, a
signature under an unknown key is one its owner makes, and a box that hides something is between two
unknown keys. An attacker who saw only safe terms derives only safe terms (`Derives.safe`).
-/

/-- Messages over secrets named by `N`. -/
inductive Term (N : Type)
  | raw (bytes : List UInt8)
  | text (s : String)
  | secret (n : N)
  | signPk (sk : Term N)
  | boxPk (sk : Term N)
  /-- A signed message; it shows the message. -/
  | signed (m sk : Term N)
  /-- A box sealed to the public key `pk` with the secret key `sk`. -/
  | boxed (m pk sk : Term N)
  | secretBoxed (m : Term N) (count : ℕ) (k : Term N)
  | pair (x y : Term N)
  | tagged (tag : ℕ) (t : Term N)
deriving DecidableEq

namespace Term

variable {N : Type}

/-- The length of a term as bytes, from the lengths of the secrets. Public keys have 32 bytes, a
signature adds 64, a box or secretbox 16, a tag and each part of a pair 2. -/
def len (size : N → ℕ) : Term N → ℕ
  | raw bytes => bytes.length
  | text s => s.utf8ByteSize
  | secret n => size n
  | signPk _ => 32
  | boxPk _ => 32
  | signed m _ => 64 + m.len size
  | boxed m _ _ => 16 + m.len size
  | secretBoxed m _ _ => 16 + m.len size
  | pair x y => 2 + x.len size + (2 + y.len size)
  | tagged _ t => 2 + t.len size

/-- `sign::verify`. -/
def verify [DecidableEq N] : Term N → Term N → Option (Term N)
  | signed m sk, pk => if pk = signPk sk then some m else none
  | _, _ => none

/-- `box_::open`: either of the two parties of a box opens it. -/
def boxOpen [DecidableEq N] : Term N → Term N → Term N → Option (Term N)
  | boxed m pk sk, theirPk, ourSk =>
    if (pk = boxPk ourSk ∧ theirPk = boxPk sk) ∨ (sk = ourSk ∧ theirPk = pk) then some m else none
  | _, _, _ => none

variable [DecidableEq N]

theorem verify_eq_some {t pk m : Term N} (h : t.verify pk = some m) : ∃ sk, t = signed m sk ∧ pk = signPk sk := by
  cases t with
  | signed m' sk =>
    rw [verify, Option.ite_none_right_eq_some] at h
    obtain ⟨hpk, hm⟩ := h
    exact ⟨sk, by rw [Option.some.inj hm], hpk⟩
  | _ => cases h

theorem boxOpen_eq_some {t theirPk ourSk m : Term N} (h : t.boxOpen theirPk ourSk = some m) :
    ∃ pk sk, t = boxed m pk sk ∧ ((pk = boxPk ourSk ∧ theirPk = boxPk sk) ∨ (sk = ourSk ∧ theirPk = pk)) := by
  cases t with
  | boxed m' pk sk =>
    rw [boxOpen, Option.ite_none_right_eq_some] at h
    obtain ⟨hwho, hm⟩ := h
    exact ⟨pk, sk, by rw [Option.some.inj hm], hwho⟩
  | _ => cases h

end Term

/-! ## What an attacker can compute -/

variable {N : Type}

/-- The terms an attacker can compute from those it saw. -/
inductive Derives (S : Set (Term N)) : Term N → Prop
  | seen {t} : t ∈ S → Derives S t
  | raw (bytes) : Derives S (.raw bytes)
  | text (s) : Derives S (.text s)
  | signPk {sk} : Derives S sk → Derives S (.signPk sk)
  | boxPk {sk} : Derives S sk → Derives S (.boxPk sk)
  | sign {m sk} : Derives S m → Derives S sk → Derives S (.signed m sk)
  | unsign {m sk} : Derives S (.signed m sk) → Derives S m
  | box {m pk sk} : Derives S m → Derives S pk → Derives S sk → Derives S (.boxed m pk sk)
  | unbox_sender {m pk sk} : Derives S (.boxed m pk sk) → Derives S sk → Derives S m
  | unbox_receiver {m sk sk'} : Derives S (.boxed m (.boxPk sk') sk) → Derives S sk' → Derives S m
  /-- A box sealed to something that is no generated public key hides nothing. -/
  | unbox_stray {m pk sk} : Derives S (.boxed m pk sk) → (∀ sk', pk ≠ .boxPk sk') → Derives S m
  | secretBox {m k} (count) : Derives S m → Derives S k → Derives S (.secretBoxed m count k)
  | unsecretBox {m count k} : Derives S (.secretBoxed m count k) → Derives S k → Derives S m
  | pair {x y} : Derives S x → Derives S y → Derives S (.pair x y)
  | fst {x y} : Derives S (.pair x y) → Derives S x
  | snd {x y} : Derives S (.pair x y) → Derives S y
  | tagged {t} (tag) : Derives S t → Derives S (.tagged tag t)
  | untag {tag t} : Derives S (.tagged tag t) → Derives S t

/-- The discipline of a protocol: which secrets may be known, what the owner of a signing key signs,
and which boxes are sealed with something to hide. -/
structure Discipline (N : Type) where
  Public : N → Prop
  SignOk : Term N → Term N → Prop
  BoxOk : Term N → Term N → Term N → Prop

namespace Discipline

variable (D : Discipline N)

/-- The messages that may be seen. A signature under a key the attacker does not have is one of its
owner's, and what a box gives away is harmless unless it is one of the protocol's own boxes. -/
def Safe : Term N → Prop
  | .raw _ | .text _ | .signPk _ | .boxPk _ => True
  | .secret n => D.Public n
  | .signed m sk => Safe m ∧ (Safe sk ∨ D.SignOk sk m)
  | .boxed m pk sk => Safe m ∨ D.BoxOk m pk sk
  | .secretBoxed m _ _ => Safe m
  | .pair x y => Safe x ∧ Safe y
  | .tagged _ t => Safe t

/-- The protocol's own boxes are between two keys that the attacker does not have. -/
def BoxesHide : Prop :=
  ∀ m pk sk, D.BoxOk m pk sk → ¬ D.Safe sk ∧ ∃ sk', pk = .boxPk sk' ∧ ¬ D.Safe sk'

/-- **What is derived from safe terms is safe.** -/
theorem safe_of_derives {D : Discipline N} (hbox : D.BoxesHide) {S : Set (Term N)}
    (hS : ∀ t ∈ S, D.Safe t) {t : Term N} (h : Derives S t) : D.Safe t := by
  induction h with
  | seen hmem => exact hS _ hmem
  | raw | text | signPk | boxPk => trivial
  | sign _ _ hm hsk => exact ⟨hm, Or.inl hsk⟩
  | unsign _ h => exact h.1
  | box _ _ _ hm _ _ => exact Or.inl hm
  | unbox_sender _ _ hboxed hsk =>
    rcases hboxed with hm | hown
    · exact hm
    · exact absurd hsk (hbox _ _ _ hown).1
  | unbox_receiver _ _ hboxed hsk =>
    rcases hboxed with hm | hown
    · exact hm
    · obtain ⟨-, sk', hpk, hunknown⟩ := hbox _ _ _ hown
      cases hpk
      exact absurd hsk hunknown
  | unbox_stray _ hstray hboxed =>
    rcases hboxed with hm | hown
    · exact hm
    · obtain ⟨-, sk', hpk, -⟩ := hbox _ _ _ hown
      exact absurd hpk (hstray sk')
  | secretBox _ _ _ hm _ => exact hm
  | unsecretBox _ _ hm _ => exact hm
  | pair _ _ hx hy => exact ⟨hx, hy⟩
  | fst _ h => exact h.1
  | snd _ h => exact h.2
  | tagged _ _ h => exact h
  | untag _ h => exact h

end Discipline
