import PeerNode.Sniper

/-!
# What an incoming request says

`error_code.h`, `request/JsonRequest` and `request/JsonTransaction`. A body is read in two
steps: the JSON-RPC envelope (its id, its version and its method), then the seven fields of
the transaction in `params`. Each step answers an `ErrorCode`, and what it read before it
failed stays readable: the id of a request whose method is unknown is still its id.
-/

namespace PeerNode

/-- `enum class ErrorCode`. -/
inductive ErrorCode
  | ok
  | getInfo
  | httpMethodNotSupported
  | emptyPostData
  | jsonParseError
  | unsupportedVersion
  | unsupportedMethod
  | unsupportedParamsType
  | noRequiredParams
  | invalidTransaction
  | verificationFailed
deriving DecidableEq, Repr

/-- `static_cast<int>(code)`. -/
def ErrorCode.toInt : ErrorCode → Int
  | .ok => 0
  | .getInfo => 1
  | .httpMethodNotSupported => -32000
  | .emptyPostData => -32001
  | .jsonParseError => -32700
  | .unsupportedVersion => -32002
  | .unsupportedMethod => -32601
  | .unsupportedParamsType => -32003
  | .noRequiredParams => -32004
  | .invalidTransaction => -32005
  | .verificationFailed => -32006

/-- `get_error_message`. -/
def getErrorMessage : ErrorCode → String
  | .httpMethodNotSupported => "http method not supported"
  | .emptyPostData => "empty post data"
  | .jsonParseError => "json parse error"
  | .unsupportedVersion => "unsupported version"
  | .unsupportedMethod => "unsupported method"
  | .unsupportedParamsType => "unsupported params type"
  | .noRequiredParams => "no required params or bad type"
  | .invalidTransaction => "Invalid transaction"
  | .verificationFailed => "Verification failed"
  | _ => "Invalid transaction"

/-! ## The envelope -/

/-- `variant<int64_t, string_view>`: the two types an id may have. -/
inductive RequestId
  | int64 (i : Int)
  | string (s : String)
deriving DecidableEq, Repr

/-- `class JsonRequest`. -/
structure JsonRequest where
  id : Option RequestId := none
  version : String := ""
  method : String := ""
deriving DecidableEq, Repr

namespace JsonRequest

/-- `is_transaction`. -/
def isTransaction (req : JsonRequest) : Bool :=
  req.method == "mhc_send" || req.method == "mhc_test_send"

/-- `is_test_ransaction`. -/
def isTestRansaction (req : JsonRequest) : Bool := req.method == "mhc_test_send"

variable {TX : Type} (sniper : Sniper TX)

/-- The members `parse` reads off the document. -/
def read (doc : Json) : JsonRequest where
  id :=
    if sniper.isString doc "id" then some (.string (sniper.getString doc "id"))
    else if sniper.isNum doc "id" then some (.int64 (sniper.getInt64 doc "id"))
    else none
  version := if sniper.isString doc "jsonrpc" then sniper.getString doc "jsonrpc" else ""
  method := if sniper.isString doc "method" then sniper.getString doc "method" else ""

/-- What `parse` answers once the members are read. -/
def check (strict : Bool) (req : JsonRequest) : ErrorCode :=
  if strict && req.version != "2.0" then .unsupportedVersion
  else if !req.isTransaction then
    if req.method == "getinfo" then .getInfo else .unsupportedMethod
  else .ok

/-- `JsonRequest::parse`: the request it fills in, the document it fills in, and its answer.
`strict` is the compile-time constant `PROXY_STRICT_JSONAPI`. -/
def parse (strict : Bool) (data : String) : JsonRequest × Json × ErrorCode :=
  if data = "" then ({}, .null, .emptyPostData)
  else
    match sniper.documentParse data with
    | none => ({}, .null, .jsonParseError)
    | some doc => (read sniper doc, doc, check strict (read sniper doc))

end JsonRequest

/-! ## The transaction -/

/-- `remove_hex_prefix`: a leading `0x` goes if something stands behind it. -/
def removeHexPrefix (str : String) : String :=
  match str.toList with
  | '0' :: 'x' :: c :: rest => String.ofList (c :: rest)
  | _ => str

/-- `class JsonTransaction`. -/
structure JsonTransaction where
  «to» : String := ""
  value : String := ""
  fee : String := ""
  nonce : String := ""
  data : String := ""
  pubkey : String := ""
  sign : String := ""
deriving DecidableEq, Repr

namespace JsonTransaction

/-- The five fields a transaction may not leave empty are not. -/
def complete (tx : JsonTransaction) : Bool :=
  !(tx.«to» == "" || tx.value == "" || tx.nonce == "" || tx.pubkey == "" || tx.sign == "")

/-- `JsonTransaction::parse`: the transaction it fills in and its answer. -/
def parse {TX : Type} (sniper : Sniper TX) (doc : Json) : JsonTransaction × ErrorCode :=
  if !sniper.isObj doc "params" then ({}, .unsupportedParamsType)
  else
    let params := (doc.member? "params").getD .null
    let tx : JsonTransaction :=
      { «to» := removeHexPrefix (sniper.getStringOrEmpty params "to")
        value := sniper.getStringOrEmpty params "value"
        fee := sniper.getStringOrEmpty params "fee"
        nonce := sniper.getStringOrEmpty params "nonce"
        data := removeHexPrefix (sniper.getStringOrEmpty params "data")
        pubkey := removeHexPrefix (sniper.getStringOrEmpty params "pubkey")
        sign := removeHexPrefix (sniper.getStringOrEmpty params "sign") }
    (tx, if tx.complete then .ok else .noRequiredParams)

end JsonTransaction

end PeerNode
