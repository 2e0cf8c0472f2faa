import RustDesk.Common.FileExtension
import RustDesk.Common.HashMap
import RustDesk.Config.PermanentPassword

/-!
# Files of peers

Reference: `libs/hbb_common/src/config.rs` (`PeerConfig::load` to `PeerConfig::get_vec_id_modified_time_path`,
`Config::with_extension`, the attributes of the fields of `PeerConfig`). A peer has a file of its own, whose name is
its id or, where the id has a character that not every system takes, the id in base64. The ids are read back
from the names.
-/

namespace RustDesk.Config

open Net UnixPath

/-- `PeerConfig`: the secrets and the fields that are checked when they are read, and the other fields. -/
@[ext]
structure PeerConfig (R : Type*) where
  password : Bytes
  viewStyle : String
  scrollStyle : String
  edgeScrollEdgeThickness : ℤ
  imageQuality : String
  customImageQuality : List ℤ
  reverseMouseWheel : String
  displaysAsIndividualWindows : String
  useAllMyDisplaysForTheRemoteSession : String
  trackpadSpeed : ℤ
  options : HashMap String String
  rest : R

/-- The files, by their paths, with the fields that were written to them. -/
abbrev PeerFiles (R : Type*) := HashMap (List Component) (PeerConfig R)

/-! ## Names -/

def PEERS : List Char := ['p', 'e', 'e', 'r', 's']

def encodedPrefix : List Char := ['b', 'a', 's', 'e', '6', '4', '_']

def toml : List Char := ['t', 'o', 'm', 'l']

/-- The characters of `forbidden_paths`. -/
def forbiddenChars : List Char := ['<', '>', ':', '/', '\\', '|', '?', '*']

def isForbidden (id : String) : Bool := id.toList.any (· ∈ forbiddenChars)

def idEncoded (id : String) : List Char :=
  if isForbidden id then encodedPrefix ++ (base64.encode (Utf8.bytes id)).toList else id.toList

/-- `Config::with_extension`. -/
def withTomlExtension (path : List Component) : List Component :=
  match extension path with
  | some ext => withExtension path (ext ++ '.' :: toml)
  | none => withExtension path toml

/-- `Config::path(PEERS)`. -/
def peersDir (configDir : List Component) : List Component := configDir ++ [.normal PEERS]

/-- `PeerConfig::path`. No name is absolute. -/
def peerPath (configDir : List Component) (id : String) : List Component :=
  withTomlExtension (peersDir configDir ++ (pieces (idEncoded id)).filterMap component)

/-- The id of a file with this stem. -/
def idDecoded (id : List Char) : String :=
  if encodedPrefix.isPrefixOf id ∧ (Utf8.bytes (String.ofList id)).length ≠ 7 then
    Utf8.lossy ((base64.decode (Utf8.bytes (String.ofList (id.drop 7)))).getD [])
  else String.ofList id

/-- What `get_vec_id_modified_time_path` makes of a file. -/
def listedPeer (configDir path : List Component) : Option (String × List Component) :=
  if path.dropLast = peersDir configDir ∧ extension path = some toml then
    some (idDecoded ((fileStem path).getD []), path)
  else none

def passesFilters (idFilters : Option (List String)) (id : String) : Bool :=
  match idFilters with
  | some filters => id ∈ filters
  | none => true

/-- `PeerConfig::get_vec_id_modified_time_path`, in no order and without the times. -/
def getVecIdModifiedTimePath {R : Type*} (configDir : List Component) (files : PeerFiles R)
    (idFilters : Option (List String)) : Multiset (String × List Component) :=
  (files.keys.val.filterMap (listedPeer configDir)).filter fun peer => passesFilters idFilters peer.1

/-! ## Contents -/

/-- A string that is empty is left out of the file. -/
def readString (default s : String) : String := if s = "" then default else s

def readRange (lo hi default v : ℤ) : ℤ := if lo ≤ v ∧ v ≤ hi then v else default

def readCustomImageQuality (default v : List ℤ) : List ℤ :=
  match v with
  | [quality] => if 10 ≤ quality ∧ quality ≤ 0xFFF then v else default
  | _ => default

/-- What is read of the fields that were written. -/
def deserialize {R : Type*} (default config : PeerConfig R) : PeerConfig R :=
  { config with
    viewStyle := readString default.viewStyle config.viewStyle
    scrollStyle := readString default.scrollStyle config.scrollStyle
    edgeScrollEdgeThickness := readRange 20 150 default.edgeScrollEdgeThickness config.edgeScrollEdgeThickness
    imageQuality := readString default.imageQuality config.imageQuality
    customImageQuality := readCustomImageQuality default.customImageQuality config.customImageQuality
    reverseMouseWheel := readString default.reverseMouseWheel config.reverseMouseWheel
    displaysAsIndividualWindows :=
      readString default.displaysAsIndividualWindows config.displaysAsIndividualWindows
    useAllMyDisplaysForTheRemoteSession :=
      readString default.useAllMyDisplaysForTheRemoteSession config.useAllMyDisplaysForTheRemoteSession
    trackpadSpeed := readRange 10 1000 default.trackpadSpeed config.trackpadSpeed }

/-- The options that are encrypted. -/
def secretOptions : List String := ["rdp_password", "os-username", "os-password"]

/-- `options.get_mut(opt)`. -/
def modifyOption (f : String → String) (options : HashMap String String) (opt : String) : HashMap String String :=
  match options.lookup opt with
  | some v => options.insert opt (f v)
  | none => options

def nul : Char := Char.ofNat 0

/-- The file can be written: it has a name, without a character that no name has. -/
def canStore (path : List Component) : Bool :=
  match path.getLast? with
  | some (.normal file) => nul ∉ file
  | _ => false

section

variable {R : Type*} (box : SecretBox Bytes) (machine : Machine) (default : PeerConfig R)
  (configDir : List Component)

/-- The secrets of `PeerConfig::store_`, with what `gen_nonce` gives for each. -/
def sealPeer (config : PeerConfig R) (nonce : String → Bytes) : PeerConfig R :=
  { config with
    password := encryptVecOrOriginal box base64 machine (nonce "password") config.password "00" encryptMaxLen
    options := secretOptions.foldl (fun options opt =>
      modifyOption (fun v => encryptStrOrOriginal box base64 machine (nonce opt) v "00" encryptMaxLen) options opt)
        config.options }

/-- `PeerConfig::store_`. -/
def storePeer (files : PeerFiles R) (config : PeerConfig R) (id : String) (nonce : String → Bytes) : PeerFiles R :=
  let path := peerPath configDir id
  if canStore path then files.insert path (sealPeer box machine config nonce) else files

/-- The secrets of `PeerConfig::load`, and whether the file is to be stored again. -/
def openPeer (config : PeerConfig R) : PeerConfig R × Bool :=
  let (password, _, store) := decryptVecOrOriginal box base64 machine config.password "00"
  ({ config with
    password := password
    options := secretOptions.foldl (fun options opt =>
      modifyOption (fun v => (decryptStrOrOriginal box base64 machine v "00").1) options opt) config.options },
    store || secretOptions.any fun opt =>
      ((config.options.lookup opt).map fun v => (decryptStrOrOriginal box base64 machine v "00").2.2).getD false)

/-- `PeerConfig::load`. -/
def loadPeer (files : PeerFiles R) (id : String) (nonce : String → Bytes) : PeerConfig R × PeerFiles R :=
  match files.lookup (peerPath configDir id) with
  | none => (default, files)
  | some stored =>
    let (config, store) := openPeer box machine (deserialize default stored)
    (config, if store then storePeer box machine configDir files config id nonce else files)

end

end RustDesk.Config
