import RustDesk.Net.HostPorts

/-!
# When the host and port functions agree

References: `libs/hbb_common/src/socket_client.rs` and the texts that its callers give: DNS names, IPv4 addresses,
and the forms of IPv6 addresses.
-/

namespace RustDesk.Net

/-! ## Hosts -/

/-- A label of a DNS name. -/
def IsLabel (label : List Char) : Prop :=
  label ≠ [] ∧ label.length ≤ 63 ∧ (∀ c ∈ label, c.isAlphanum = true ∨ c = '-') ∧
    label.head? ≠ some '-' ∧ label.getLast? ≠ some '-'

instance (label : List Char) : Decidable (IsLabel label) :=
  decidable_of_iff (label ≠ [] ∧ label.length ≤ 63 ∧ (label.all fun c => c.isAlphanum = true ∨ c = '-') = true ∧
    label.head? ≠ some '-' ∧ label.getLast? ≠ some '-') (by simp [IsLabel])

structure DnsName where
  labels : List (List Char)
  ne_nil : labels ≠ []
  valid : ∀ label ∈ labels, IsLabel label
  /-- With the dot of the root at its end. -/
  root : Bool

def DnsName.text (name : DnsName) : List Char :=
  List.intercalate ['.'] name.labels ++ if name.root then ['.'] else []

/-- A piece of 16 bits. -/
structure HexGroup where
  text : List Char
  isGroup : IsGroup text

/-- The forms of an IPv6 address: eight pieces, fewer around `::`, and an IPv4 address for the last two. -/
inductive Ipv6Text
  | full (groups : Vector HexGroup 8)
  | compressed (before after : List HexGroup) (short : before.length + after.length ≤ 7)
  | mixed (groups : Vector HexGroup 6) (v4 : Vector UInt8 4)
  | compressedMixed (before after : List HexGroup) (v4 : Vector UInt8 4) (short : before.length + after.length ≤ 5)

/-- Pieces and what comes after them, with a colon between one and the next. -/
def joinGroups (groups : List HexGroup) (tail : List (List Char)) : List Char :=
  List.intercalate [':'] (groups.map (·.text) ++ tail)

def Ipv6Text.text : Ipv6Text → List Char
  | .full groups => joinGroups groups.toList []
  | .compressed before after _ => joinGroups before [] ++ ([':', ':'] ++ joinGroups after [])
  | .mixed groups v4 => joinGroups groups.toList [IpAddr.displayV4 v4.toList]
  | .compressedMixed before after v4 _ =>
    joinGroups before [] ++ ([':', ':'] ++ joinGroups after [IpAddr.displayV4 v4.toList])

inductive Host
  | dnsName (name : DnsName)
  | ipv4 (octets : Vector UInt8 4)
  | ipv6 (address : Ipv6Text)

namespace Host

def text : Host → List Char
  | dnsName name => name.text
  | ipv4 octets => IpAddr.displayV4 octets.toList
  | ipv6 address => address.text

/-- The host as it stands before a port: an IPv6 address is in brackets. -/
def literal : Host → List Char
  | ipv6 address => '[' :: (address.text ++ [']'])
  | h => h.text

def withPort (h : Host) (port : ℤ) : List Char := joinPort h.literal [':'] port

/-- No short name of hexadecimal digits with a port of at most four digits, and no IPv6 address that begins or
ends with a colon or has an IPv4 address in it. -/
def Recognised : Host → ℤ → Prop
  | dnsName name, port => ¬ (IsGroup name.text ∧ port ≤ 9999)
  | ipv4 _, _ => True
  | ipv6 address, _ =>
    '.' ∉ address.text ∧ address.text.head? ≠ some ':' ∧ address.text.getLast? ≠ some ':'

end Host

/-- The functions agree on a host and a port. -/
structure PortLaws (decimal : List Char) (h : Host) (port offset : ℤ) : Prop where
  check : checkPort decimal h.text port = h.withPort port
  split : splitHostPort decimal (checkPort decimal h.text port) = some (h.literal, port)
  kept : ∀ other, checkPort decimal (h.withPort port) other = h.withPort port
  increase : increasePort decimal (checkPort decimal h.text port) offset = checkPort decimal h.text (port + offset)

/-! ## IPv6 addresses -/

variable {decimal : List Char} {groups : List HexGroup}

theorem joinGroups_cons_cons (group group' : HexGroup) (groups : List HexGroup) (tail : List (List Char)) :
    joinGroups (group :: group' :: groups) tail = group.text ++ ([':'] ++ joinGroups (group' :: groups) tail) := by
  simp [joinGroups, List.intercalate]

theorem joined_joinGroups (h : groups ≠ []) : Joined (joinGroups groups []) := by
  induction groups with
  | nil => exact absurd rfl h
  | cons group groups ih =>
    cases groups with
    | nil => simpa [joinGroups, List.intercalate] using Joined.one group.isGroup
    | cons group' groups =>
      rw [joinGroups_cons_cons]
      exact .more group.isGroup (.inl rfl) (ih (List.cons_ne_nil _ _))

/-- Pieces, colons and what comes after them are all there is. -/
theorem mem_joinGroups {tail : List (List Char)} {c : Char} (h : c ∈ joinGroups groups tail) :
    c ∈ hexDigits ∨ c = ':' ∨ ∃ text ∈ tail, c ∈ text := by
  have hmem : ∀ parts : List (List Char), c ∈ List.intercalate [':'] parts → c = ':' ∨ ∃ part ∈ parts, c ∈ part := by
    intro parts
    induction parts using List.twoStepInduction with
    | nil => simp [List.intercalate]
    | singleton part => exact fun hc => .inr ⟨part, List.mem_singleton_self _, by simpa [List.intercalate] using hc⟩
    | cons_cons part part' parts _ ih =>
      intro hc
      have hcons : List.intercalate [':'] (part :: part' :: parts) =
          part ++ ([':'] ++ List.intercalate [':'] (part' :: parts)) := by
        simp [List.intercalate, List.intersperse]
      rw [hcons, List.mem_append, List.mem_append, List.mem_singleton] at hc
      rcases hc with hc | hc | hc
      · exact .inr ⟨part, List.mem_cons_self, hc⟩
      · exact .inl hc
      · rcases ih part' hc with hc | ⟨text, htext, hc⟩
        · exact .inl hc
        · exact .inr ⟨text, List.mem_cons_of_mem _ htext, hc⟩
  rcases hmem _ h with hc | ⟨part, hpart, hc⟩
  · exact .inr (.inl hc)
  · rcases List.mem_append.mp hpart with hpart | hpart
    · obtain ⟨group, -, rfl⟩ := List.mem_map.mp hpart
      exact .inl (group.isGroup.2.2 c hc)
    · exact .inr (.inr ⟨part, hpart, hc⟩)

theorem bracket_notMem_displayV4 (octets : Vector UInt8 4) : '[' ∉ IpAddr.displayV4 octets.toList := by
  have hdigits (n : ℕ) : '[' ∉ Nat.toDigits 10 n := fun h =>
    absurd (Nat.isDigit_of_mem_toDigits (by decide) (by decide) h) (by decide)
  obtain ⟨⟨os⟩, hsize⟩ := octets
  match os, hsize with
  | [a, b, c, d], _ => simp [IpAddr.displayV4, List.intercalate, List.intersperse, hdigits]

theorem dot_mem_joinGroups (groups : List HexGroup) (octets : Vector UInt8 4) :
    '.' ∈ joinGroups groups [IpAddr.displayV4 octets.toList] := by
  have hdot : '.' ∈ IpAddr.displayV4 octets.toList := by
    obtain ⟨⟨os⟩, hsize⟩ := octets
    match os, hsize with
    | [a, b, c, d], _ => simp [IpAddr.displayV4, List.intercalate, List.intersperse]
  induction groups with
  | nil => simpa [joinGroups, List.intercalate] using hdot
  | cons group groups ih =>
    cases groups with
    | nil => simp [joinGroups, List.intercalate, List.intersperse, hdot]
    | cons group' groups =>
      rw [joinGroups_cons_cons]
      exact List.mem_append_right _ (List.mem_append_right _ ih)

/-- Two pieces or more. -/
theorem groups_joinGroups (h : 2 ≤ groups.length) : Groups (joinGroups groups []) := by
  cases groups with
  | nil => cases h
  | cons group groups =>
    cases groups with
    | nil => exact absurd h (Nat.lt_irrefl 1)
    | cons group' groups =>
      rw [joinGroups_cons_cons]
      exact ⟨_, [':'], _, group.isGroup, .inl rfl, joined_joinGroups (List.cons_ne_nil _ _), rfl⟩

namespace Ipv6Text

/-- **The pattern knows** the addresses that have no IPv4 address in them and no colon at an end. -/
theorem groups_text_iff (address : Ipv6Text) : Groups address.text ↔
      '.' ∉ address.text ∧ address.text.head? ≠ some ':' ∧ address.text.getLast? ≠ some ':' := by
  constructor
  · exact fun h => ⟨h.notMem (by decide) (by decide), h.joined.head_ne, h.joined.getLast_ne⟩
  · rintro ⟨hdot, hhead, hlast⟩
    cases address with
    | full groups => exact groups_joinGroups (by rw [Vector.length_toList]; decide)
    | compressed before after short =>
      have hbefore : before ≠ [] := by
        rintro rfl
        exact hhead rfl
      have hafter : after ≠ [] := by
        rintro rfl
        refine hlast ?_
        show (joinGroups before [] ++ ([':', ':'] ++ [])).getLast? = some ':'
        simp
      exact (joined_joinGroups hbefore).append (.inr rfl) (joined_joinGroups hafter)
    | mixed groups v4 => exact absurd (dot_mem_joinGroups _ _) hdot
    | compressedMixed before after v4 short =>
      exact absurd (List.mem_append_right _ (List.mem_append_right _ (dot_mem_joinGroups _ _))) hdot

theorem bracket_notMem_text (address : Ipv6Text) : '[' ∉ address.text := by
  have hjoin : ∀ (groups : List HexGroup) (tail : List (List Char)), (∀ text ∈ tail, '[' ∉ text) →
      '[' ∉ joinGroups groups tail := by
    intro groups tail htail h
    rcases mem_joinGroups h with h | h | ⟨text, htext, h⟩
    · exact absurd h (by decide)
    · exact absurd h (by decide)
    · exact htail text htext h
  have hnone : ∀ groups : List HexGroup, '[' ∉ joinGroups groups [] := fun groups =>
    hjoin groups [] (List.forall_mem_nil _)
  have hone : ∀ (groups : List HexGroup) (octets : Vector UInt8 4),
      '[' ∉ joinGroups groups [IpAddr.displayV4 octets.toList] := fun groups octets =>
    hjoin groups _ (List.forall_mem_singleton.mpr (bracket_notMem_displayV4 octets))
  cases address with
  | full groups => exact hnone _
  | mixed groups v4 => exact hone _ _
  | compressed before after short =>
    rw [text, List.mem_append, List.mem_append]
    exact fun h => h.elim (hnone _) fun h => h.elim (by decide) (hnone _)
  | compressedMixed before after v4 short =>
    rw [text, List.mem_append, List.mem_append]
    exact fun h => h.elim (hnone _) fun h => h.elim (by decide) (hone _ _)

theorem isIpv6Str_text (address : Ipv6Text) : isIpv6Str decimal address.text = true ↔ Groups address.text :=
  isIpv6Str_of_head_ne fun hhead => address.bracket_notMem_text (List.mem_of_head? hhead)

end Ipv6Text

/-! ## The laws -/

namespace DnsName

variable (name : DnsName)

theorem notMem_text {c : Char} (halphanum : c.isAlphanum = false) (hdash : c ≠ '-') (hdot : c ≠ '.') : c ∉ name.text := by
  have hlabels : ∀ labels : List (List Char), (∀ label ∈ labels, IsLabel label) →
      c ∉ List.intercalate ['.'] labels := by
    intro labels hvalid h
    have hlabel : ∀ label ∈ labels, c ∉ label := by
      intro label hmem hc
      rcases (hvalid label hmem).2.2.1 c hc with h | h
      · rw [halphanum] at h
        cases h
      · exact hdash h
    induction labels using List.twoStepInduction with
    | nil => simp [List.intercalate] at h
    | singleton label => exact hlabel label (List.mem_singleton_self _) (by simpa [List.intercalate] using h)
    | cons_cons label label' labels _ ih =>
      have hcons : List.intercalate ['.'] (label :: label' :: labels) =
          label ++ ('.' :: List.intercalate ['.'] (label' :: labels)) := by
        simp [List.intercalate]
      rw [hcons, List.mem_append, List.mem_cons] at h
      rcases h with h | h | h
      · exact hlabel label List.mem_cons_self h
      · exact hdot h
      · exact ih label' (fun l hl => hvalid l (List.mem_cons_of_mem _ hl)) h
          fun l hl => hlabel l (List.mem_cons_of_mem _ hl)
  rw [text, List.mem_append, not_or]
  refine ⟨hlabels name.labels name.valid, ?_⟩
  split
  · simpa using hdot
  · exact List.not_mem_nil

end DnsName

variable {port offset : ℤ}

/-- The laws of a name without colons and brackets. -/
theorem portLaws_name_iff {h : Host} (hliteral : h.literal = h.text) (hcolon : ':' ∉ h.text) (hbracket : '[' ∉ h.text)
    (hport : 1 ≤ port) (hle : port ≤ 65535) (hsum : 1 ≤ port + offset) (hsum' : port + offset ≤ 65535) :
    PortLaws decimal h port offset ↔ ¬ (IsGroup h.text ∧ port ≤ 9999) := by
  have hwith : h.withPort port = joinPort h.text [':'] port := by rw [Host.withPort, hliteral]
  have hcheck : (∀ other, checkPort decimal (joinPort h.text [':'] port) other = joinPort h.text [':'] port) ↔
      ¬ (IsGroup h.text ∧ port ≤ 9999) := checkPort_joinPort_iff hcolon hbracket hport
  rw [← hcheck]
  constructor
  · intro hlaws
    rw [← hwith]
    exact hlaws.kept
  · intro hkept
    have hgroup := (checkPort_joinPort_iff hcolon hbracket hport).mp hkept
    refine ⟨?_, ?_, ?_, ?_⟩
    · rw [checkPort_name hcolon, hwith]
    · rw [checkPort_name hcolon, splitHostPort_joinPort hcolon hbracket hport hle hgroup, hliteral]
    · rwa [hwith]
    · rw [checkPort_name hcolon, checkPort_name hcolon,
        increasePort_joinPort hcolon hbracket hport hle hsum hsum' hgroup]

theorem portLaws_ipv6_iff (address : Ipv6Text) (hdecimal : ∀ c, c.isDigit = true → c ∈ decimal)
    (hport : 1 ≤ port) (hle : port ≤ 65535) (hsum : 1 ≤ port + offset) (hsum' : port + offset ≤ 65535) :
    PortLaws decimal (.ipv6 address) port offset ↔ Groups address.text := by
  have hwith : (Host.ipv6 address).withPort port = joinPort ('[' :: address.text) [']', ':'] port := by
    simp [Host.withPort, Host.literal, joinPort]
  constructor
  · intro hlaws
    by_contra hgroups
    have hcheck : checkPort decimal address.text port = (Host.ipv6 address).withPort port := hlaws.check
    rw [hwith, checkPort, if_neg (fun h => hgroups (address.isIpv6Str_text.mp h))] at hcheck
    -- without the brackets the text is too short
    have hlength := congrArg List.length hcheck
    split at hlength <;> simp only [joinPort, List.length_cons, List.length_append] at hlength <;> omega
  · intro hgroups
    refine ⟨?_, ?_, ?_, ?_⟩
    · rw [hwith]
      exact checkPort_ipv6 hgroups
    · show splitHostPort decimal (checkPort decimal address.text port) = _
      rw [checkPort_ipv6 hgroups]
      exact splitHostPort_brackets hgroups hdecimal hport hle
    · rw [hwith]
      exact checkPort_brackets hgroups hdecimal hport
    · show increasePort decimal (checkPort decimal address.text port) offset = checkPort decimal address.text _
      rw [checkPort_ipv6 hgroups, checkPort_ipv6 hgroups]
      exact increasePort_brackets hgroups hdecimal hport hle hsum hsum'

theorem not_isGroup_displayV4 (octets : Vector UInt8 4) : ¬ IsGroup (IpAddr.displayV4 octets.toList) := by
  intro hgroup
  have hdot := dot_mem_joinGroups [] octets
  rw [joinGroups, List.map_nil, List.nil_append, List.intercalate, List.intersperse_singleton, List.flatten_singleton] at hdot
  exact hgroup.notMem (by decide) hdot

/-- **The functions agree** on a host with a port just if the pattern takes neither the address for a name nor the
name and its port for an address. -/
theorem portLaws_iff_recognised (decimal : List Char) (hdecimal : ∀ c, c.isDigit = true → c ∈ decimal) (h : Host)
    (port offset : ℤ) (hport : 1 ≤ port ∧ port ≤ 65535) (hsum : 1 ≤ port + offset ∧ port + offset ≤ 65535) :
    PortLaws decimal h port offset ↔ h.Recognised port := by
  cases h with
  | dnsName name =>
    exact portLaws_name_iff rfl (name.notMem_text (by decide) (by decide) (by decide))
      (name.notMem_text (by decide) (by decide) (by decide)) hport.1 hport.2 hsum.1 hsum.2
  | ipv4 octets =>
    have hbracket : '[' ∉ (Host.ipv4 octets).text := bracket_notMem_displayV4 octets
    rw [@portLaws_name_iff decimal port offset (.ipv4 octets) rfl (IpAddr.colon_notMem_displayV4 octets) hbracket hport.1 hport.2 hsum.1 hsum.2]
    exact iff_of_true (fun h => not_isGroup_displayV4 octets h.1) trivial
  | ipv6 address =>
    rw [portLaws_ipv6_iff address hdecimal hport.1 hport.2 hsum.1 hsum.2]
    exact address.groups_text_iff

/-- A server with its port. -/
theorem portLaws_of_server :
    PortLaws asciiDigits (.dnsName ⟨["rs-ny".toList, "rustdesk".toList, "com".toList], by decide, by decide, false⟩)
      21116 1 :=
  (portLaws_iff_recognised asciiDigits isDigit_mem_asciiDigits _ 21116 1 (by decide) (by decide)).mpr
    (show ¬ _ by decide)

/-- The name `cafe` with port 80 is an address to the pattern, and `::1` is none. -/
theorem not_portLaws_cafe :
    ¬ PortLaws asciiDigits (.dnsName ⟨["cafe".toList], by decide, by decide, false⟩) 80 1 ∧
      ¬ PortLaws asciiDigits (.ipv6 (.compressed [] [⟨['1'], by decide⟩] (by decide))) 80 1 := by
  constructor
  · intro h
    have hlaws := (portLaws_name_iff (h := .dnsName ⟨["cafe".toList], by decide, by decide, false⟩) rfl (by decide)
      (by decide) (by decide) (by decide) (by decide) (by decide)).mp h
    exact hlaws (by decide)
  · intro h
    have hgroups := (portLaws_ipv6_iff _ isDigit_mem_asciiDigits (by decide) (by decide) (by decide) (by decide)).mp h
    exact hgroups.joined.head_ne rfl

end RustDesk.Net
