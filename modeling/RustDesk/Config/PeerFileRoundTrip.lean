import RustDesk.Config.PeerFileIds

/-!
# Peers and their files

A config that is stored for each of some ids is listed with its id and loaded again, if the ids are read back from
the names of their files and the configs keep their secrets and fields.
-/

namespace RustDesk.Config

open Net UnixPath

/-! ## Secrets -/

/-- What is opened is no longer than its box. -/
def OpensShorter (box : SecretBox Bytes) : Prop :=
  ∀ c nonce key m, box.openBox c nonce key = some m → m.length ≤ c.length

section

variable {box : SecretBox Bytes} {machine : Machine} {nonce : Bytes}

theorem length_symmetricDecrypt (hopens : OpensShorter box) {data m : Bytes}
    (h : symmetricDecrypt box machine data = some m) : m.length ≤ data.length := by
  have hpayload : ∀ key, openSecretboxPayload box data key = some m → m.length ≤ data.length := by
    intro key hopen
    unfold openSecretboxPayload at hopen
    dsimp only at hopen
    split at hopen
    · next hv1 =>
      cases hopen
      obtain ⟨-, hv1⟩ := Option.ite_none_right_eq_some.mp hv1
      have hle := hopens _ _ _ _ hv1
      rw [List.length_drop] at hle
      omega
    · exact hopens _ _ _ _ hopen
  unfold symmetricDecrypt at h
  split at h
  · next hown =>
    cases h
    exact hpayload _ hown
  · split at h
    · cases h
    · split at h
      · obtain ⟨-, h⟩ := Option.ite_none_right_eq_some.mp h
        exact hpayload _ h
      · cases h

/-- A secret is shorter than its text. -/
theorem length_decrypt (hopens : OpensShorter box) {v m : Bytes} (h : decrypt box base64 machine v = some m) :
    m.length ≤ v.length ∧ ∀ b ∈ v, b.toNat < 128 := by
  obtain ⟨-, h⟩ := Option.ite_none_right_eq_some.mp h
  obtain ⟨data, hdata, h⟩ := Option.bind_eq_some_iff.mp h
  obtain ⟨-, hle, hascii⟩ := Base64.decode_spec hdata
  exact ⟨Nat.le_trans (length_symmetricDecrypt hopens h) hle, hascii⟩

/-- A password that comes back. -/
def KeptVec (box : SecretBox Bytes) (machine : Machine) (v : Bytes) : Prop :=
  if isEncrypted base64 v then (decryptVecOrOriginal box base64 machine v "00").2.1 = false
  else v.length ≤ encryptMaxLen

/-- An option that comes back. -/
def KeptStr (box : SecretBox Bytes) (machine : Machine) (s : String) : Prop :=
  if isEncrypted base64 (Utf8.bytes s) then (decryptStrOrOriginal box base64 machine s "00").2.1 = false
  else s.length ≤ encryptMaxLen

theorem keptVec_iff (hbox : box.Correct) (hopens : OpensShorter box) (hnonce : nonce.length = nonceBytes)
    (v : Bytes) : (decryptVecOrOriginal box base64 machine
      (encryptVecOrOriginal box base64 machine nonce v "00" encryptMaxLen) "00").1 = v ↔
      KeptVec box machine v := by
  unfold KeptVec
  by_cases hencrypted : isEncrypted base64 v = true
  · have hsame : encryptVecOrOriginal box base64 machine nonce v "00" encryptMaxLen = v := if_pos hencrypted
    rw [hsame, if_pos hencrypted]
    unfold decryptVecOrOriginal
    dsimp only
    split
    · next m hm =>
      -- it is opened, and then shorter
      obtain ⟨⟨hlong, -⟩, hm⟩ := Option.ite_none_right_eq_some.mp hm
      have hle := (length_decrypt hopens hm).1
      rw [List.length_drop] at hle
      refine iff_of_false (fun heq => ?_) (by simp)
      have hlength : m.length = v.length := congrArg List.length heq
      unfold versionLen at hlong hle
      omega
    · simp
  · rw [if_neg hencrypted]
    rw [Bool.not_eq_true] at hencrypted
    by_cases hshort : v.length ≤ encryptMaxLen
    · rw [decryptVec_encryptVec hbox base64_correct hshort hencrypted hnonce]
      exact iff_of_true rfl hshort
    · have hlost : encryptVecOrOriginal box base64 machine nonce v "00" encryptMaxLen = [] := by
        rw [encryptVecOrOriginal, hencrypted, if_neg Bool.false_ne_true, if_pos (Nat.not_le.mp hshort)]
      rw [hlost, decryptVec_empty]
      refine iff_of_false (fun heq => hshort ?_) hshort
      change [] = v at heq
      rw [← heq]
      exact Nat.zero_le _

theorem keptStr_iff (hbox : box.Correct) (hopens : OpensShorter box) (hnonce : nonce.length = nonceBytes)
    (s : String) : (decryptStrOrOriginal box base64 machine
      (encryptStrOrOriginal box base64 machine nonce s "00" encryptMaxLen) "00").1 = s ↔
      KeptStr box machine s := by
  unfold KeptStr
  by_cases hencrypted : isEncrypted base64 (Utf8.bytes s) = true
  · have hsame : encryptStrOrOriginal box base64 machine nonce s "00" encryptMaxLen = s := if_pos hencrypted
    rw [hsame, if_pos hencrypted]
    unfold decryptStrOrOriginal
    dsimp only
    split
    · next m hm =>
      obtain ⟨⟨hlong, hversion⟩, hm⟩ := Option.ite_none_right_eq_some.mp hm
      obtain ⟨hle, hascii⟩ := length_decrypt hopens hm
      rw [List.length_drop] at hle
      obtain ⟨digits, hdigits⟩ := List.isPrefixOf_iff_prefix.mp hversion
      have hall : ∀ b ∈ Utf8.bytes s, b.toNat < 128 := by
        rw [← hdigits, bytes_version] at hascii ⊢
        simp only [List.cons_append, List.nil_append, List.forall_mem_cons]
        exact ⟨by decide, by decide, hascii⟩
      have hchars := Utf8.length_of_ascii hall
      refine iff_of_false (fun heq => ?_) (by simp)
      have hlossy : s.length ≤ m.length := by
        rw [← heq]
        exact Utf8.length_lossy m
      unfold versionLen at hlong hle
      omega
    · simp
  · rw [if_neg hencrypted]
    rw [Bool.not_eq_true] at hencrypted
    by_cases hshort : s.length ≤ encryptMaxLen
    · rw [decryptStr_encryptStr hbox base64_correct hshort hencrypted hnonce]
      exact iff_of_true rfl hshort
    · have hlost : encryptStrOrOriginal box base64 machine nonce s "00" encryptMaxLen = "" := by
        rw [encryptStrOrOriginal, hencrypted, if_neg Bool.false_ne_true, if_pos (Nat.not_le.mp hshort)]
      rw [hlost, decryptStr_empty]
      refine iff_of_false (fun heq => hshort ?_) hshort
      change "" = s at heq
      rw [← heq]
      exact Nat.zero_le _

end

/-! ## Options -/

theorem lookup_modifyOption (f : String → String) (options : HashMap String String) (opt k : String) :
    (modifyOption f options opt).lookup k =
      if k = opt then (options.lookup k).map f else options.lookup k := by
  unfold modifyOption
  split
  · next v hv =>
    split
    · next hk => rw [hk, Finmap.lookup_insert, hv, Option.map_some]
    · next hk => exact Finmap.lookup_insert_of_ne _ hk
  · next hnone =>
    split
    · next hk => rw [hk, hnone, Option.map_none]
    · rfl

theorem lookup_foldl_modifyOption (f : String → String → String) (opts : List String) (hopts : opts.Nodup)
    (options : HashMap String String) (k : String) :
    (opts.foldl (fun options opt => modifyOption (f opt) options opt) options).lookup k =
      if k ∈ opts then (options.lookup k).map (f k) else options.lookup k := by
  induction opts generalizing options with
  | nil => simp
  | cons opt opts ih =>
    obtain ⟨hnew, hopts⟩ := List.nodup_cons.mp hopts
    rw [List.foldl_cons, ih hopts, lookup_modifyOption]
    by_cases hk : k = opt
    · subst hk
      simp [hnew]
    · simp [hk]

/-! ## Configs -/

def KeptString (default s : String) : Prop := s = "" → default = ""

def KeptRange (lo hi default v : ℤ) : Prop := lo ≤ v ∧ v ≤ hi ∨ v = default

def KeptCustomImageQuality (default v : List ℤ) : Prop := (∃ q, v = [q] ∧ 10 ≤ q ∧ q ≤ 0xFFF) ∨ v = default

variable {R : Type*} {box : SecretBox Bytes} {machine : Machine} {default config : PeerConfig R}
  {configDir : List Component} {path : List Component} {id : String}

/-- A config whose secrets come back and whose fields pass the checks when they are read. -/
structure Kept (box : SecretBox Bytes) (machine : Machine) (default config : PeerConfig R) : Prop where
  password : KeptVec box machine config.password
  options : ∀ opt ∈ secretOptions, ∀ v, config.options.lookup opt = some v → KeptStr box machine v
  viewStyle : KeptString default.viewStyle config.viewStyle
  scrollStyle : KeptString default.scrollStyle config.scrollStyle
  edgeScrollEdgeThickness :
    KeptRange 20 150 default.edgeScrollEdgeThickness config.edgeScrollEdgeThickness
  imageQuality : KeptString default.imageQuality config.imageQuality
  customImageQuality : KeptCustomImageQuality default.customImageQuality config.customImageQuality
  reverseMouseWheel : KeptString default.reverseMouseWheel config.reverseMouseWheel
  displaysAsIndividualWindows :
    KeptString default.displaysAsIndividualWindows config.displaysAsIndividualWindows
  useAllMyDisplaysForTheRemoteSession :
    KeptString default.useAllMyDisplaysForTheRemoteSession config.useAllMyDisplaysForTheRemoteSession
  trackpadSpeed : KeptRange 10 1000 default.trackpadSpeed config.trackpadSpeed

theorem readString_eq_iff (default s : String) : readString default s = s ↔ KeptString default s := by
  unfold readString KeptString
  split
  · next hs => simp [hs]
  · next hs => simp [hs]

theorem readRange_eq_iff (lo hi default v : ℤ) : readRange lo hi default v = v ↔ KeptRange lo hi default v := by
  unfold readRange KeptRange
  split
  · next hv => exact iff_of_true rfl (.inl hv)
  · next hv => rw [eq_comm, or_iff_right hv]

theorem readCustomImageQuality_eq_iff (default v : List ℤ) :
    readCustomImageQuality default v = v ↔ KeptCustomImageQuality default v := by
  unfold readCustomImageQuality KeptCustomImageQuality
  split
  · next q =>
    split
    · next hq => exact iff_of_true rfl (.inl ⟨q, rfl, hq⟩)
    · next hq =>
      rw [eq_comm, or_iff_right]
      rintro ⟨q', heq, hq'⟩
      obtain rfl := (List.cons.inj heq).1
      exact hq hq'
  · next hother =>
    rw [eq_comm, or_iff_right]
    rintro ⟨q, rfl, -⟩
    exact hother q rfl

section

variable (hbox : box.Correct) (hopens : OpensShorter box) {nonce : String → Bytes}
  (hnonce : ∀ field, (nonce field).length = nonceBytes)
include hbox hopens hnonce

/-- The options are encrypted and decrypted one by one. -/
theorem options_openPeer (config : PeerConfig R) :
    (openPeer box machine (deserialize default (sealPeer box machine config nonce))).1.options = config.options ↔
      ∀ opt ∈ secretOptions, ∀ v, config.options.lookup opt = some v → KeptStr box machine v := by
  have hnodup : secretOptions.Nodup := by decide
  have hlookup : ∀ k, (openPeer box machine (deserialize default
      (sealPeer box machine config nonce))).1.options.lookup k =
      if k ∈ secretOptions then (config.options.lookup k).map fun v =>
        (decryptStrOrOriginal box base64 machine
          (encryptStrOrOriginal box base64 machine (nonce k) v "00" encryptMaxLen) "00").1
      else config.options.lookup k := by
    intro k
    refine (lookup_foldl_modifyOption (fun _ v => (decryptStrOrOriginal box base64 machine v "00").1) secretOptions
      hnodup _ k).trans ?_
    have hsealed := lookup_foldl_modifyOption (fun opt v =>
      encryptStrOrOriginal box base64 machine (nonce opt) v "00" encryptMaxLen) secretOptions hnodup config.options k
    split
    · next hk =>
      rw [if_pos hk] at hsealed
      refine (congrArg _ hsealed).trans ?_
      rw [Option.map_map]
      rfl
    · next hk =>
      rw [if_neg hk] at hsealed
      exact hsealed
  constructor
  · intro heq opt hopt v hv
    have hone := hlookup opt
    rw [heq, if_pos hopt, hv, Option.map_some] at hone
    exact (keptStr_iff hbox hopens (hnonce opt) v).mp (Option.some.inj hone).symm
  · intro hkept
    refine Finmap.ext_lookup fun k => ?_
    rw [hlookup k]
    split
    · next hk =>
      cases hv : config.options.lookup k with
      | none => rfl
      | some v => rw [Option.map_some, (keptStr_iff hbox hopens (hnonce k) v).mpr (hkept k hk v hv)]
    · rfl

/-- **Which configs come back** from what is written of them. -/
theorem openPeer_sealPeer_iff (default config : PeerConfig R) :
    (openPeer box machine (deserialize default (sealPeer box machine config nonce))).1 = config ↔
      Kept box machine default config := by
  rw [PeerConfig.ext_iff, options_openPeer hbox hopens hnonce]
  constructor
  · rintro ⟨hpassword, hview, hscroll, hedge, himage, hcustom, hreverse, hdisplays, hall, htrackpad, hoptions, -⟩
    exact ⟨(keptVec_iff hbox hopens (hnonce "password") _).mp hpassword, hoptions,
      (readString_eq_iff _ _).mp hview, (readString_eq_iff _ _).mp hscroll, (readRange_eq_iff _ _ _ _).mp hedge,
      (readString_eq_iff _ _).mp himage, (readCustomImageQuality_eq_iff _ _).mp hcustom,
      (readString_eq_iff _ _).mp hreverse, (readString_eq_iff _ _).mp hdisplays, (readString_eq_iff _ _).mp hall,
      (readRange_eq_iff _ _ _ _).mp htrackpad⟩
  · rintro ⟨hpassword, hoptions, hview, hscroll, hedge, himage, hcustom, hreverse, hdisplays, hall, htrackpad⟩
    exact ⟨(keptVec_iff hbox hopens (hnonce "password") _).mpr hpassword, (readString_eq_iff _ _).mpr hview,
      (readString_eq_iff _ _).mpr hscroll, (readRange_eq_iff _ _ _ _).mpr hedge, (readString_eq_iff _ _).mpr himage,
      (readCustomImageQuality_eq_iff _ _).mpr hcustom, (readString_eq_iff _ _).mpr hreverse,
      (readString_eq_iff _ _).mpr hdisplays, (readString_eq_iff _ _).mpr hall,
      (readRange_eq_iff _ _ _ _).mpr htrackpad, hoptions, rfl⟩

end

/-! ## The files -/

/-- A config that is stored for an id, and what `gen_nonce` gives for its secrets. -/
structure PeerStore (R : Type*) where
  id : String
  config : PeerConfig R
  nonce : String → Bytes

/-- Configs that are stored for some ids, one after another. -/
structure PeerStores (R : Type*) where
  list : List (PeerStore R)
  nodup : (list.map (·.id)).Nodup
  nonempty : ∀ peer ∈ list, peer.id ≠ ""
  nonces : ∀ peer ∈ list, ∀ field, (peer.nonce field).length = nonceBytes

def storeAll (box : SecretBox Bytes) (machine : Machine) (configDir : List Component) (list : List (PeerStore R)) :
    PeerFiles R :=
  list.foldl (fun files peer => storePeer box machine configDir files peer.config peer.id peer.nonce) ∅

theorem lookup_storePeer (files : PeerFiles R) (peer : PeerStore R) (path : List Component) :
    (storePeer box machine configDir files peer.config peer.id peer.nonce).lookup path =
      if path = peerPath configDir peer.id ∧ canStore path = true then
        some (sealPeer box machine peer.config peer.nonce)
      else files.lookup path := by
  unfold storePeer
  by_cases hstore : canStore (peerPath configDir peer.id) = true
  · rw [if_pos hstore]
    by_cases hpath : path = peerPath configDir peer.id
    · subst hpath
      rw [Finmap.lookup_insert, if_pos ⟨rfl, hstore⟩]
    · rw [Finmap.lookup_insert_of_ne _ hpath, if_neg fun h => hpath h.1]
  · rw [if_neg hstore, if_neg]
    rintro ⟨rfl, h⟩
    exact hstore h

theorem storeAll_concat (list : List (PeerStore R)) (peer : PeerStore R) :
    storeAll box machine configDir (list ++ [peer]) =
      storePeer box machine configDir (storeAll box machine configDir list) peer.config peer.id peer.nonce := by
  rw [storeAll, List.foldl_append]
  rfl

/-- What is there is what was stored. -/
theorem mem_storeAll {list : List (PeerStore R)} {stored : PeerConfig R}
    (h : (storeAll box machine configDir list).lookup path = some stored) :
    ∃ peer ∈ list, path = peerPath configDir peer.id ∧ canStore path = true ∧
      stored = sealPeer box machine peer.config peer.nonce := by
  induction list using List.reverseRecOn with
  | nil => cases h
  | append_singleton list peer ih =>
    rw [storeAll_concat, lookup_storePeer] at h
    split at h
    · next hpath => exact ⟨peer, by simp, hpath.1, hpath.2, (Option.some.inj h).symm⟩
    · obtain ⟨peer', hmem, hpeer'⟩ := ih h
      exact ⟨peer', List.mem_append_left _ hmem, hpeer'⟩

variable {peer : PeerStore R} {peers : PeerStores R}

/-- What was stored is there, if no other id has the same file. -/
theorem lookup_storeAll {list : List (PeerStore R)} (hmem : peer ∈ list) (hids : (list.map (·.id)).Nodup)
    (hdistinct : ∀ a ∈ list, ∀ b ∈ list, peerPath configDir a.id = peerPath configDir b.id → a.id = b.id)
    (hstore : canStore (peerPath configDir peer.id) = true) :
    (storeAll box machine configDir list).lookup (peerPath configDir peer.id) =
      some (sealPeer box machine peer.config peer.nonce) := by
  induction list using List.reverseRecOn with
  | nil => exact absurd hmem List.not_mem_nil
  | append_singleton list last ih =>
    rw [List.map_append, List.nodup_append] at hids
    rw [storeAll_concat, lookup_storePeer]
    rcases List.mem_append.mp hmem with hmem | hlast
    · have hne : peerPath configDir peer.id ≠ peerPath configDir last.id := by
        intro heq
        have hid := hdistinct peer (List.mem_append_left _ hmem) last (by simp) heq
        exact hids.2.2 peer.id (List.mem_map_of_mem hmem) last.id (by simp) hid
      rw [if_neg fun h => hne h.1]
      exact ih hmem hids.1 fun a ha b hb => hdistinct a (List.mem_append_left _ ha) b (List.mem_append_left _ hb)
    · obtain rfl := List.mem_singleton.mp hlast
      exact if_pos ⟨rfl, hstore⟩

/-- What is listed, for all files. -/
theorem mem_getVecIdModifiedTimePath {files : PeerFiles R} :
    (id, path) ∈ getVecIdModifiedTimePath configDir files none ↔
      path ∈ files ∧ listedPeer configDir path = some (id, path) := by
  have hpath : ∀ path' listed, listedPeer configDir path' = some listed → listed.2 = path' := by
    intro path' listed h
    obtain ⟨-, h⟩ := Option.ite_none_right_eq_some.mp h
    rw [← Option.some.inj h]
  unfold getVecIdModifiedTimePath
  rw [Multiset.mem_filter, Multiset.mem_filterMap]
  constructor
  · rintro ⟨⟨path', hmem, hlisted⟩, -⟩
    obtain rfl : path = path' := hpath path' _ hlisted
    exact ⟨Finmap.mem_keys.mp hmem, hlisted⟩
  · rintro ⟨hmem, hlisted⟩
    exact ⟨⟨path, Finmap.mem_keys.mpr hmem, hlisted⟩, rfl⟩

theorem nodup_getVecIdModifiedTimePath (files : PeerFiles R) :
    (getVecIdModifiedTimePath configDir files none).Nodup := by
  refine .filter _ (Multiset.Nodup.filterMap _ (fun path path' listed h h' => ?_) files.keys.nodup)
  obtain ⟨-, h⟩ := Option.ite_none_right_eq_some.mp h
  obtain ⟨-, h'⟩ := Option.ite_none_right_eq_some.mp h'
  exact congrArg Prod.snd (Option.some.inj (h.trans h'.symm))

/-! ## Faithful files -/

/-- Each id has a file of its own in the directory, the ids are listed with their files, and the config of an id is
what is loaded for the id that its file is listed with. -/
structure FaithfulFiles (box : SecretBox Bytes) (machine : Machine) (default : PeerConfig R)
    (configDir : List Component) (peers : PeerStores R) : Prop where
  distinct : ∀ a ∈ peers.list, ∀ b ∈ peers.list, peerPath configDir a.id = peerPath configDir b.id → a.id = b.id
  direct : ∀ peer ∈ peers.list, ∃ file, peerPath configDir peer.id = peersDir configDir ++ [.normal file]
  listed : getVecIdModifiedTimePath configDir (storeAll box machine configDir peers.list) none =
    peers.list.map fun peer => (peer.id, peerPath configDir peer.id)
  loaded : ∀ peer ∈ peers.list, ∀ id,
    (id, peerPath configDir peer.id) ∈
      getVecIdModifiedTimePath configDir (storeAll box machine configDir peers.list) none →
    ∀ nonce, (loadPeer box machine default configDir (storeAll box machine configDir peers.list) id nonce).1 =
      peer.config

/-- What is loaded for an id is opened from what was stored for it. -/
theorem loadPeer_storeAll (hmem : peer ∈ peers.list)
    (hdistinct : ∀ a ∈ peers.list, ∀ b ∈ peers.list, peerPath configDir a.id = peerPath configDir b.id → a.id = b.id)
    (hstore : canStore (peerPath configDir peer.id) = true) (nonce : String → Bytes) :
    (loadPeer box machine default configDir (storeAll box machine configDir peers.list) peer.id nonce).1 =
      (openPeer box machine (deserialize default (sealPeer box machine peer.config peer.nonce))).1 := by
  rw [loadPeer, lookup_storeAll hmem peers.nodup hdistinct hstore]

/-- A good id has a file of its own. -/
theorem Lists.eq_of_path {id' : String} (h : Lists configDir id) (h' : Lists configDir id')
    (hpath : peerPath configDir id = peerPath configDir id') : id = id' := by
  have hlisted := h.2
  rw [hpath, h'.2] at hlisted
  exact (Prod.mk.inj (Option.some.inj hlisted)).1.symm

theorem GoodId.direct (configDir : List Component) (hid : id ≠ "") (h : GoodId id) :
    ∃ file, peerPath configDir id = peersDir configDir ++ [.normal file] := by
  have hlists := (lists_iff configDir hid).mpr h
  obtain ⟨⟨hdir, -⟩, -⟩ := Option.ite_none_right_eq_some.mp hlists.2
  have hstore := hlists.1
  unfold canStore at hstore
  split at hstore
  · next file hlast =>
    refine ⟨file, ?_⟩
    rw [← hdir]
    exact (List.dropLast_append_getLast? _ hlast).symm
  · cases hstore

/-- An id that is listed is read back from the name of its file. -/
theorem FaithfulFiles.lists (h : FaithfulFiles box machine default configDir peers) (hmem : peer ∈ peers.list) :
    (peer.id, peerPath configDir peer.id) ∈
      getVecIdModifiedTimePath configDir (storeAll box machine configDir peers.list) none ∧
    Lists configDir peer.id := by
  have hlisted : (peer.id, peerPath configDir peer.id) ∈
      getVecIdModifiedTimePath configDir (storeAll box machine configDir peers.list) none := by
    rw [h.listed]
    exact Multiset.mem_coe.mpr (List.mem_map_of_mem hmem)
  obtain ⟨hfile, hname⟩ := mem_getVecIdModifiedTimePath.mp hlisted
  obtain ⟨stored, hstored⟩ := Option.isSome_iff_exists.mp (Finmap.lookup_isSome.mpr hfile)
  obtain ⟨-, -, -, hstore, -⟩ := mem_storeAll hstored
  exact ⟨hlisted, hstore, hname⟩

/-- What is listed of ids that are read back. -/
theorem mem_listed_iff (hlists : ∀ peer ∈ peers.list, Lists configDir peer.id) :
    (id, path) ∈ getVecIdModifiedTimePath configDir (storeAll box machine configDir peers.list) none ↔
      ∃ peer ∈ peers.list, peer.id = id ∧ peerPath configDir peer.id = path := by
  rw [mem_getVecIdModifiedTimePath]
  constructor
  · rintro ⟨hfile, hname⟩
    obtain ⟨stored, hstored⟩ := Option.isSome_iff_exists.mp (Finmap.lookup_isSome.mpr hfile)
    obtain ⟨peer, hmem, rfl, -⟩ := mem_storeAll hstored
    rw [(hlists peer hmem).2] at hname
    exact ⟨peer, hmem, (Prod.mk.inj (Option.some.inj hname)).1, rfl⟩
  · rintro ⟨peer, hmem, rfl, rfl⟩
    refine ⟨Finmap.lookup_isSome.mp ?_, (hlists peer hmem).2⟩
    rw [lookup_storeAll hmem peers.nodup (fun a ha b hb => (hlists a ha).eq_of_path (hlists b hb))
      (hlists peer hmem).1]
    rfl

/-- **The files of the peers are faithful** just if every id is good and every config is kept. -/
theorem faithfulFiles_iff (hbox : box.Correct) (hopens : OpensShorter box) (machine : Machine)
    (default : PeerConfig R) (configDir : List Component) (peers : PeerStores R) :
    FaithfulFiles box machine default configDir peers ↔
      ∀ peer ∈ peers.list, GoodId peer.id ∧ Kept box machine default peer.config := by
  constructor
  · intro h peer hmem
    obtain ⟨hlisted, hlists⟩ := h.lists hmem
    have hloaded := h.loaded peer hmem peer.id hlisted peer.nonce
    rw [loadPeer_storeAll hmem h.distinct hlists.1] at hloaded
    exact ⟨(lists_iff configDir (peers.nonempty peer hmem)).mp hlists,
      (openPeer_sealPeer_iff hbox hopens (peers.nonces peer hmem) default peer.config).mp hloaded⟩
  · intro h
    have hlists : ∀ peer ∈ peers.list, Lists configDir peer.id := fun peer hmem =>
      (lists_iff configDir (peers.nonempty peer hmem)).mpr (h peer hmem).1
    have hdistinct : ∀ a ∈ peers.list, ∀ b ∈ peers.list,
        peerPath configDir a.id = peerPath configDir b.id → a.id = b.id :=
      fun a ha b hb => (hlists a ha).eq_of_path (hlists b hb)
    refine ⟨hdistinct, fun peer hmem => (h peer hmem).1.direct configDir (peers.nonempty peer hmem), ?_, ?_⟩
    · -- both sides have no pair twice, and the same pairs
      refine (Multiset.Nodup.ext (nodup_getVecIdModifiedTimePath _) ?_).mpr fun pair => ?_
      · refine Multiset.coe_nodup.mpr (.of_map Prod.fst ?_)
        rw [List.map_map]
        exact peers.nodup
      · rw [Multiset.mem_coe, List.mem_map, mem_listed_iff hlists]
        exact exists_congr fun peer => and_congr_right fun _ => Prod.mk_inj.symm
    · intro peer hmem id hid nonce
      obtain ⟨peer', hmem', rfl, hpath⟩ := (mem_listed_iff hlists).mp hid
      have heq : peer' = peer :=
        List.inj_on_of_nodup_map peers.nodup hmem' hmem (hdistinct peer' hmem' peer hmem hpath)
      subst heq
      rw [loadPeer_storeAll hmem hdistinct (hlists _ hmem).1]
      exact (openPeer_sealPeer_iff hbox hopens (peers.nonces _ hmem) default _).mpr (h _ hmem).2

/-! ## Examples -/

private def exampleConfig : PeerConfig Unit :=
  ⟨[], "original", "scrollauto", 100, "balanced", [50], "", "", "", 100, ∅, ()⟩

private def exampleStore (id : String) : PeerStore Unit := ⟨id, exampleConfig, fun _ => List.replicate 24 0⟩

/-- Peers with the default config. -/
private def exampleStores (ids : List String) (hids : ids.Nodup) (hne : ∀ id ∈ ids, id ≠ "") : PeerStores Unit where
  list := ids.map exampleStore
  nodup := by
    rw [List.map_map]
    exact hids.map fun _ _ h => h
  nonempty := by
    rw [List.forall_mem_map]
    exact hne
  nonces := by
    rw [List.forall_mem_map]
    exact fun _ _ _ => rfl

theorem faithfulFiles_iff_one :
    FaithfulFiles tagBox exampleMachine exampleConfig [] (exampleStores ["123"] (by decide) (by decide)) := by
  have hopens : OpensShorter tagBox := by
    intro c nonce key m h
    obtain ⟨-, h⟩ := Option.ite_none_right_eq_some.mp h
    cases h
    rw [List.length_drop]
    exact Nat.sub_le _ _
  refine (faithfulFiles_iff tagBox_correct hopens exampleMachine exampleConfig [] _).mpr fun peer hmem => ?_
  obtain rfl := List.mem_singleton.mp hmem
  constructor
  · rw [GoodId, if_neg (by decide)]
    exact ⟨by decide, by decide, by decide, fun h => absurd h (by decide)⟩
  · refine ⟨Nat.zero_le _, fun opt _ v hv => ?_, id, id, .inr rfl, id, .inr rfl, id, id, id, .inr rfl⟩
    cases hv

/-- An id that must be encoded, and another that is the name of its file. -/
theorem not_faithfulFiles :
    ¬ FaithfulFiles tagBox exampleMachine exampleConfig []
      (exampleStores ["a:b", "base64_YTpi"] (by decide) (by decide)) := by
  intro h
  have hpath : peerPath [] "a:b" = peerPath [] "base64_YTpi" := by decide
  have hid := h.distinct (exampleStore "a:b") List.mem_cons_self (exampleStore "base64_YTpi")
    (List.mem_cons_of_mem _ List.mem_cons_self) hpath
  exact absurd hid (by decide)

end RustDesk.Config
