import PeerNode.Lib.Json

/-!
# What the node calls outside its own sources

The node is written over libsniper (`libs/core`, a git submodule that is not in this tree),
a crypto library and libconfig. Everything it calls there is a field of `Sniper` or of
`Key`: functions the development knows nothing about. Where a result rests on what such a
function is documented to do, the result says so as a hypothesis.

`rapidjson::Document::Parse` is such a function too, for the same reason it can be: nothing
the node does depends on which texts are refused, only on the document an accepted text
gives. Its source is in the tree, though: `Rapidjson/Reader` is the reader, and `Exchange` puts it
in this place. Bytes that are not text are `Bytes`; a `string_view` is the string of its characters,
and in `Exchange`, where nothing says that they are any, of its bytes.
-/

namespace PeerNode

abbrev Bytes := List UInt8

/-- `net::Peer`: an address and a 16-bit port. -/
structure Peer where
  ip : UInt32
  port : UInt16
deriving DecidableEq, Repr

/-- `net::Domain`: a name and the nodes it stands for. -/
structure Domain where
  name : String := ""
  nodes : List Peer := []
deriving DecidableEq, Repr

/-- `mh::Key`, as far as the node asks it. `sign` is the DER signature it writes, or nothing
when it fails. -/
structure Key where
  hexPubkey : String
  hexAddr : String
  sign : Bytes → Option Bytes

/-- The functions of the libraries. `TX` is `mh::TX`, loaded and read through them only. -/
structure Sniper (TX : Type) where
  /-- `rapidjson::Document::Parse`: the document, or a parse error. -/
  documentParse : String → Option Json
  /- `sniper/std/rapidjson.h`. -/
  isString : Json → String → Bool
  isNum : Json → String → Bool
  isObj : Json → String → Bool
  getString : Json → String → String
  getInt64 : Json → String → Int
  getStringOrEmpty : Json → String → String
  /-- `TX::load_hex`: to, value, fee, nonce, data, pubkey, sign. -/
  loadHex : String → String → String → String → String → String → String → Option TX
  /-- `mh::verify`. -/
  verify : TX → Bool
  /-- `TX::raw`: the transaction's bytes. -/
  raw : TX → Bytes
  /-- `TX::move`: the same buffer, given away. -/
  move : TX → Bytes
  /-- `crypto::hash_sha256_2`. -/
  hashSha2562 : Bytes → Bytes
  /-- `strings::bin2hex`. -/
  bin2hex : Bytes → String
  /-- What `strings::bin2hex_append` appends. -/
  bin2hexAppend : Bytes → String
  /-- The `generation()` of the request `http::client::make_request()` makes. -/
  freshGeneration : Nat

/-! ## Libraries to run the node on -/

/-- A byte in hex. -/
def hexByte (b : UInt8) : List Char := [Json.hexDigit (b.toNat / 16), Json.hexDigit (b.toNat % 16)]

def hexBytes (bytes : Bytes) : String := String.ofList (bytes.flatMap hexByte)

/-- Libraries that read what is there and find every transaction good. A transaction is the bytes
of its recipient. -/
def Sniper.plain : Sniper Bytes where
  documentParse text := Json.parse text.toList
  isString doc name := match doc.member? name with
    | some (.str _) => true
    | _ => false
  isNum doc name := match doc.member? name with
    | some (.num _ _) => true
    | _ => false
  isObj doc name := match doc.member? name with
    | some (.obj _) => true
    | _ => false
  getString doc name := match doc.member? name with
    | some (.str s) => s
    | _ => ""
  getInt64 doc name := match doc.member? name with
    | some (.num m 0) =>
      if -9223372036854775808 ≤ m ∧ m ≤ 9223372036854775807 then m else 0
    | _ => 0
  getStringOrEmpty doc name := match doc.member? name with
    | some (.str s) => s
    | _ => ""
  loadHex recipient _ _ _ _ _ _ := some (recipient.toList.map fun c => c.toNat.toUInt8)
  verify _ := true
  raw tx := tx
  move tx := tx
  hashSha2562 bytes := bytes
  bin2hex := hexBytes
  bin2hexAppend := hexBytes
  freshGeneration := 0

/-- A key that signs everything the same way. -/
def Key.plain : Key where
  hexPubkey := "02"
  hexAddr := "0x00"
  sign _ := some [48]

end PeerNode
