import PeerNode.Rapidjson.Writer
import PeerNode.Request

/-!
# The three replies

`message.cpp`: the error reply, the reply to an accepted transaction and the reply to
`getinfo`, each in two dialects chosen at compile time (`PROXY_STRICT_JSONAPI`, here
`strict`). The builders are the calls the source makes on the writer.

Beside each builder stands the document it is meant to write (`errorReply`, `okReply`,
`getinfoReply`), and the theorem that it writes just that.
-/

namespace PeerNode

open Rapidjson

/-- `VERSION`. -/
def version : String := "2.1.10"

/-- The end all three builders share: the id of the request, or a null one if the dialect
asks for it. -/
def writeId (strict : Bool) (req : JsonRequest) (w : Writer) : Writer :=
  match req.id with
  | some (.int64 i) => (w.key "id").int64 i
  | some (.string s) => (w.key "id").string s
  | none => if strict then (w.key "id").null else w

/-- `make_error_json`. -/
def makeErrorJson (strict : Bool) (code : ErrorCode) (req : JsonRequest) : String :=
  let w : Writer := {}
  let w := w.startObject
  let w :=
    if strict then
      let w := (w.key "jsonrpc").string "2.0"
      let w := (w.key "error").startObject
      let w := (w.key "code").int64 code.toInt
      let w := (w.key "message").string (getErrorMessage code)
      w.endObject
    else
      let w := (w.key "result").string "ok"
      (w.key "error").string (getErrorMessage code)
  let w := writeId strict req w
  let w := w.endObject
  String.ofList w.os

/-- `make_ok_json`. -/
def makeOkJson {TX : Type} (sniper : Sniper TX) (strict : Bool) (rawTx : Bytes)
    (req : JsonRequest) : String :=
  let hashHex := sniper.bin2hex (sniper.hashSha2562 rawTx)
  let w : Writer := {}
  let w := w.startObject
  let w :=
    if strict then
      let w := (w.key "jsonrpc").string "2.0"
      let w := (w.key "result").startObject
      let w := (w.key "status").string "ok"
      let w := (w.key "params").string hashHex
      w.endObject
    else
      let w := (w.key "result").string "ok"
      (w.key "params").string hashHex
  let w := writeId strict req w
  let w := w.endObject
  String.ofList w.os

/-- `make_getinfo_json`. -/
def makeGetinfoJson (strict : Bool) (mhAddr : String) (req : JsonRequest) : String :=
  let w : Writer := {}
  let w := w.startObject
  let w := if strict then (w.key "jsonrpc").string "2.0" else w
  let w := (w.key "result").startObject
  let w := (w.key "version").string version
  let w := if mhAddr = "" then w else (w.key "mh_addr").string mhAddr
  let w := w.endObject
  let w := if strict then w else (w.key "error").null
  let w := writeId strict req w
  let w := w.endObject
  String.ofList w.os

/-! ## The documents they write -/

/-- The member that carries the id. -/
def idMembers (strict : Bool) : Option RequestId → List (String × Json)
  | some (.int64 i) => [("id", .int i)]
  | some (.string s) => [("id", .str s)]
  | none => if strict then [("id", .null)] else []

/-- The error reply. -/
def errorReply (strict : Bool) (code : ErrorCode) (id : Option RequestId) : Json :=
  .obj ((if strict then
      [("jsonrpc", .str "2.0"),
       ("error", .obj [("code", .int code.toInt), ("message", .str (getErrorMessage code))])]
    else [("result", .str "ok"), ("error", .str (getErrorMessage code))])
    ++ idMembers strict id)

/-- The reply to an accepted transaction: the hash of its bytes. -/
def okReply (strict : Bool) (hashHex : String) (id : Option RequestId) : Json :=
  .obj ((if strict then
      [("jsonrpc", .str "2.0"),
       ("result", .obj [("status", .str "ok"), ("params", .str hashHex)])]
    else [("result", .str "ok"), ("params", .str hashHex)])
    ++ idMembers strict id)

/-- What a node says of itself. -/
def infoMembers (mhAddr : String) : List (String × Json) :=
  ("version", .str version) :: (if mhAddr = "" then [] else [("mh_addr", .str mhAddr)])

/-- The reply to `getinfo`. -/
def getinfoReply (strict : Bool) (mhAddr : String) (id : Option RequestId) : Json :=
  .obj ((if strict then [("jsonrpc", .str "2.0"), ("result", .obj (infoMembers mhAddr))]
    else [("result", .obj (infoMembers mhAddr)), ("error", .null)])
    ++ idMembers strict id)

/-! ## The builders write them -/

/-- The id as a member to write. -/
private def idToWrite (strict : Bool) : Option RequestId → List Member
  | some (.int64 i) => [.int64 "id" i]
  | some (.string s) => [.string "id" s]
  | none => if strict then [.null "id"] else []

private theorem writeId_eq (strict : Bool) (req : JsonRequest) (w : Writer) :
    writeId strict req w = (idToWrite strict req.id).foldl Member.write w := by
  unfold writeId idToWrite
  match req.id, strict with
  | some (.int64 i), _ => rfl
  | some (.string s), _ => rfl
  | none, true => rfl
  | none, false => rfl

private theorem idToWrite_entries (strict : Bool) (id : Option RequestId) :
    (idToWrite strict id).map Member.entry = idMembers strict id := by
  match id, strict with
  | some (.int64 i), _ => rfl
  | some (.string s), _ => rfl
  | none, true => rfl
  | none, false => rfl

/-- What all three builders do: members of their own, then the id. -/
private theorem reply_text (strict : Bool) (req : JsonRequest) (ms : List Member) :
    (writeId strict req (ms.foldl Member.write ({} : Writer).startObject)).endObject.os
      = (Json.obj (ms.map Member.entry ++ idMembers strict req.id)).render := by
  rw [writeId_eq, ← List.foldl_append, ← idToWrite_entries, ← List.map_append]
  exact (emits_object _).text

theorem makeErrorJson_eq (strict : Bool) (code : ErrorCode) (req : JsonRequest) :
    makeErrorJson strict code req = String.ofList (errorReply strict code req.id).render := by
  cases strict with
  | false =>
    exact congrArg String.ofList (reply_text false req
      [.string "result" "ok", .string "error" (getErrorMessage code)])
  | true =>
    exact congrArg String.ofList (reply_text true req
      [.string "jsonrpc" "2.0",
       .object "error" [.int64 "code" code.toInt, .string "message" (getErrorMessage code)]])

theorem makeOkJson_eq {TX : Type} (sniper : Sniper TX) (strict : Bool) (rawTx : Bytes)
    (req : JsonRequest) :
    makeOkJson sniper strict rawTx req
      = String.ofList
          (okReply strict (sniper.bin2hex (sniper.hashSha2562 rawTx)) req.id).render := by
  cases strict with
  | false =>
    exact congrArg String.ofList (reply_text false req
      [.string "result" "ok", .string "params" (sniper.bin2hex (sniper.hashSha2562 rawTx))])
  | true =>
    exact congrArg String.ofList (reply_text true req
      [.string "jsonrpc" "2.0",
       .object "result"
        [.string "status" "ok", .string "params" (sniper.bin2hex (sniper.hashSha2562 rawTx))]])

/-- What a node says of itself, as members to write. -/
private def infoToWrite (mhAddr : String) : List Member :=
  .string "version" version :: (if mhAddr = "" then [] else [.string "mh_addr" mhAddr])

private theorem infoToWrite_entries (mhAddr : String) :
    (infoToWrite mhAddr).map Member.entry = infoMembers mhAddr := by
  unfold infoToWrite infoMembers
  split <;> rfl

private theorem writeInfo_eq (mhAddr : String) (w : Writer) :
    (let w := (w.key "version").string version
      if mhAddr = "" then w else (w.key "mh_addr").string mhAddr)
      = (infoToWrite mhAddr).foldl Member.write w := by
  unfold infoToWrite
  split <;> rfl

theorem makeGetinfoJson_eq (strict : Bool) (mhAddr : String) (req : JsonRequest) :
    makeGetinfoJson strict mhAddr req
      = String.ofList (getinfoReply strict mhAddr req.id).render := by
  have info := writeInfo_eq mhAddr
  cases strict with
  | false =>
    have text := reply_text false req [.object "result" (infoToWrite mhAddr), .null "error"]
    simp only [List.map_cons, List.map_nil, Member.entry, Member.object,
      infoToWrite_entries] at text
    rw [getinfoReply, if_neg (by decide)]
    refine (congrArg String.ofList ?_).trans (congrArg String.ofList text)
    exact congrArg (fun w : Writer =>
      (writeId false req ((w.endObject).key "error").null).endObject.os) (info _)
  | true =>
    have text := reply_text true req
      [.string "jsonrpc" "2.0", .object "result" (infoToWrite mhAddr)]
    simp only [List.map_cons, List.map_nil, Member.entry, Member.object, Member.string,
      infoToWrite_entries] at text
    rw [getinfoReply, if_pos rfl]
    refine (congrArg String.ofList ?_).trans (congrArg String.ofList text)
    exact congrArg (fun w : Writer => (writeId true req w.endObject).endObject.os) (info _)

end PeerNode
