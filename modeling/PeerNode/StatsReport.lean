import PeerNode.Reports

/-!
# The text of a statistics report

`Stats.cpp`: what `timer_stats` writes once its exchanges are done, and posts to the
statistics server. A report is a JSON-RPC notification with one object for each metric.
`writeReport` is the calls the source makes on the writer, `reportDocument` the document they
are meant to write.

The server has nothing but these texts. `reports_add_up` takes its side: whatever the order
of the threads, every text it is sent reads as one document, and the numbers it reads off the
texts it was given add up to the requests the node counted, but for what `Reports` says is
still under way or was lost with a post that failed.
-/

namespace PeerNode

open Mealy Rapidjson

variable {TX : Type} (env : Env TX) {n : Nat}

/-! ## Writing -/

/-- What the statistics thread asks the system for when it starts: `getHostName` and `getMyIp`. -/
structure Host where
  name : String
  ip : String

/-- `my_ip`: the address of the configuration, or the system's. -/
def myIp (host : Host) : String := if env.config.ip = "" then host.ip else env.config.ip

/-- One object of the array, the calls that write its value given. -/
def writeMetric (metric type : String) (value : Writer → Writer) (w : Writer) : Writer :=
  let w := w.startObject
  let w := (w.key "metric").string metric
  let w := (w.key "type").string type
  let w := value (w.key "value")
  w.endObject

/-- The body of `timer_stats`: the text of a report taken at the time `ts`. -/
def writeReport (host : Host) (ts : Int) (report : Counters Int) : String :=
  let w : Writer := {}
  let w := w.startObject
  let w := (w.key "jsonrpc").string "2.0"
  let w := (w.key "params").startObject
  let w := (w.key "network").string env.config.network.name
  let w := (w.key "group").string "proxy"
  let w := (w.key "server").string host.name
  let w := (w.key "timestamp_ms").int64 ts
  let w := (w.key "metrics").startArray
  let w := writeMetric "qps" "sum" (·.int64 report.total) w
  let w := writeMetric "qps_trash" "sum" (·.int64 report.trash) w
  let w := writeMetric "qps_no_req" "sum" (·.int64 report.noReq) w
  let w := writeMetric "qps_inv" "sum" (·.int64 report.inv) w
  let w := writeMetric "qps_inv_sign" "sum" (·.int64 report.invSign) w
  let w := writeMetric "qps_success" "sum" (·.int64 report.success) w
  let w := writeMetric "queue" "sum" (·.int64 report.queue) w
  let w := writeMetric "ip" "none" (·.string (myIp env host)) w
  let w :=
    if env.key.hexAddr = "" then w
    else writeMetric "mh_addr" "none" (·.string env.key.hexAddr) w
  let w := writeMetric "version" "none" (·.string version) w
  let w := w.endArray
  let w := w.endObject
  let w := (w.key "id").int64 1
  let w := w.endObject
  String.ofList w.os

/-! ## The document it writes -/

/-- A metric: its name, its type and its value. -/
structure Metric where
  metric : String
  type : String
  value : Json

/-- The name a counter is reported under. -/
def Field.metric : Field → String
  | .total => "qps"
  | .trash => "qps_trash"
  | .noReq => "qps_no_req"
  | .inv => "qps_inv"
  | .invSign => "qps_inv_sign"
  | .success => "qps_success"

/-- The metrics that are counted. -/
def countedMetrics (report : Counters Int) : List Metric :=
  Field.all.map (fun f => ⟨f.metric, "sum", .int (report.get f)⟩)
    ++ [⟨"queue", "sum", .int report.queue⟩]

/-- The metrics that say who reports. -/
def namingMetrics (host : Host) : List Metric :=
  ⟨"ip", "none", .str (myIp env host)⟩ ::
    ((if env.key.hexAddr = "" then [] else [⟨"mh_addr", "none", .str env.key.hexAddr⟩])
      ++ [⟨"version", "none", .str version⟩])

def Metric.document (m : Metric) : Json :=
  .obj [("metric", .str m.metric), ("type", .str m.type), ("value", m.value)]

/-- What a report says. -/
def reportDocument (host : Host) (ts : Int) (report : Counters Int) : Json :=
  .obj
    [("jsonrpc", .str "2.0"),
     ("params", .obj
      [("network", .str env.config.network.name),
       ("group", .str "proxy"),
       ("server", .str host.name),
       ("timestamp_ms", .int ts),
       ("metrics", .arr ((countedMetrics report ++ namingMetrics env host).map Metric.document))]),
     ("id", .int 1)]

/-- A metric as an item to write. -/
private def metricItem (metric type : String) (value : Member) (key : value.key = "value") :
    Item where
  calls := writeMetric metric type value.calls
  value := Metric.document ⟨metric, type, value.value⟩
  emits := by
    have object := emits_object [.string "metric" metric, .string "type" type, value]
    simp only [List.foldl_cons, List.foldl_nil, List.map_cons, List.map_nil, Member.write,
      Member.entry, key] at object
    exact object

private def countItem (metric : String) (i : Int) : Item :=
  metricItem metric "sum" (.int64 "value" i) rfl

private def nameItem (metric s : String) : Item :=
  metricItem metric "none" (.string "value" s) rfl

private def reportItems (host : Host) (report : Counters Int) : List Item :=
  [countItem "qps" report.total, countItem "qps_trash" report.trash,
   countItem "qps_no_req" report.noReq, countItem "qps_inv" report.inv,
   countItem "qps_inv_sign" report.invSign, countItem "qps_success" report.success,
   countItem "queue" report.queue, nameItem "ip" (myIp env host)]
  ++ ((if env.key.hexAddr = "" then [] else [nameItem "mh_addr" env.key.hexAddr])
    ++ [nameItem "version" version])

private theorem reportItems_value (host : Host) (report : Counters Int) :
    (reportItems env host report).map Item.value
      = (countedMetrics report ++ namingMetrics env host).map Metric.document := by
  unfold reportItems namingMetrics
  split <;> rfl

/-- **The calls write the document.** -/
theorem writeReport_eq (host : Host) (ts : Int) (report : Counters Int) :
    writeReport env host ts report = String.ofList (reportDocument env host ts report).render := by
  have text := (emits_object
    [.string "jsonrpc" "2.0",
     .object "params"
      [.string "network" env.config.network.name, .string "group" "proxy",
       .string "server" host.name, .int64 "timestamp_ms" ts,
       .array "metrics" (reportItems env host report)],
     .int64 "id" 1]).text
  have document : Json.obj _ = reportDocument env host ts report :=
    congrArg (fun items => Json.obj
      [("jsonrpc", .str "2.0"),
       ("params", .obj
        [("network", .str env.config.network.name), ("group", .str "proxy"),
         ("server", .str host.name), ("timestamp_ms", .int ts), ("metrics", .arr items)]),
       ("id", .int 1)]) (reportItems_value env host report)
  rw [← document]
  refine (congrArg String.ofList ?_).trans (congrArg String.ofList text)
  unfold reportItems
  by_cases named : env.key.hexAddr = ""
  · simp only [named, if_true]
    rfl
  · simp only [named, if_false]
    rfl

/-! ## Reading a report -/

/-- An object of the array is that of a metric. -/
def isMetric (name : String) (item : Json) : Bool :=
  match item.member? "metric" with
  | some (.str s) => s == name
  | _ => false

/-- The objects a report has for a metric. -/
def metricsNamed (doc : Json) (name : String) : List Json :=
  match (doc.member? "params").bind (·.member? "metrics") with
  | some (.arr items) => items.filter (isMetric name)
  | _ => []

/-- What a report counts of a metric: the values of its objects. -/
def readCount (doc : Json) (name : String) : List Json :=
  (metricsNamed doc name).filterMap (·.member? "value")

theorem metricsNamed_report (host : Host) (ts : Int) (report : Counters Int) (name : String) :
    metricsNamed (reportDocument env host ts report) name
      = ((countedMetrics report ++ namingMetrics env host).filter (·.metric == name)).map
          Metric.document := by
  show ((countedMetrics report ++ namingMetrics env host).map Metric.document).filter
    (isMetric name) = _
  rw [List.filter_map]
  rfl

/-- The names that say who reports are no names of what is counted. -/
theorem filter_naming (host : Host) {name : String} (ip : name ≠ "ip") (addr : name ≠ "mh_addr")
    (version : name ≠ "version") : (namingMetrics env host).filter (·.metric == name) = [] := by
  rw [List.filter_eq_nil_iff]
  intro m mem
  unfold namingMetrics at mem
  split at mem <;> simp at mem <;> grind

theorem readCount_metric (host : Host) (ts : Int) (report : Counters Int) (f : Field) :
    readCount (reportDocument env host ts report) f.metric = [.int (report.get f)] := by
  have others : (namingMetrics env host).filter (·.metric == f.metric) = [] := by
    cases f <;> exact filter_naming env host (by decide) (by decide) (by decide)
  rw [readCount, metricsNamed_report, List.filter_append, others, List.append_nil]
  cases f <;> rfl

theorem readCount_queue (host : Host) (ts : Int) (report : Counters Int) :
    readCount (reportDocument env host ts report) "queue" = [.int report.queue] := by
  have others : (namingMetrics env host).filter (·.metric == "queue") = [] :=
    filter_naming env host (by decide) (by decide) (by decide)
  rw [readCount, metricsNamed_report, List.filter_append, others, List.append_nil]
  rfl

theorem noRepeatedKeys_documents (ms : List Metric)
    (plain : ∀ m ∈ ms, m.value.NoRepeatedKeys) :
    Json.NoRepeatedKeysItems (ms.map Metric.document) := by
  induction ms with
  | nil => trivial
  | cons m ms ih =>
    refine ⟨⟨?_, trivial, trivial, plain m List.mem_cons_self, trivial⟩, ih fun m' mem =>
      plain m' (List.mem_cons_of_mem _ mem)⟩
    show ["metric", "type", "value"].Nodup
    decide

theorem reportDocument_keys (host : Host) (ts : Int) (report : Counters Int) :
    (reportDocument env host ts report).NoRepeatedKeys := by
  have plain : ∀ m ∈ countedMetrics report ++ namingMetrics env host, m.value.NoRepeatedKeys := by
    intro m mem
    rcases List.mem_append.mp mem with counted | naming
    · rcases List.mem_append.mp counted with six | queue
      · obtain ⟨f, -, rfl⟩ := List.mem_map.mp six
        trivial
      · rw [List.mem_singleton.mp queue]
        trivial
    · unfold namingMetrics at naming
      split at naming <;> simp at naming <;> grind [Json.NoRepeatedKeys]
  refine ⟨?_, trivial, ⟨?_, trivial, trivial, trivial, trivial, ?_, trivial⟩, trivial, trivial⟩
  · show ["jsonrpc", "params", "id"].Nodup
    decide
  · show ["network", "group", "server", "timestamp_ms", "metrics"].Nodup
    decide
  · exact noRepeatedKeys_documents _ plain

/-! ## What the server adds up -/

/-- The report of a post and what the post answered. -/
def Deed.post? : Deed n → Option (Counters Int × Bool)
  | .posted report sent => some (report, sent)
  | _ => none

/-- The texts of a run's posts that answered `sent`, the `k`-th post written at `clock k`. -/
def postedTexts (host : Host) (clock : Nat → Int) (sent : Bool) (tr : List (Deed n)) :
    List String :=
  ((tr.filterMap Deed.post?).zipIdx.filter (·.1.2 == sent)).map fun (post, k) =>
    writeReport env host (clock k) post.1

/-- The number a value is. -/
def intOf : Json → Int
  | .num i 0 => i
  | _ => 0

/-- What a text counts of a metric. -/
def textCount (name text : String) : Int :=
  match Json.parse text.toList with
  | some doc => ((readCount doc name).map intOf).sum
  | none => 0

theorem parse_writeReport (host : Host) (ts : Int) (report : Counters Int) :
    Json.parse (writeReport env host ts report).toList
      = some (reportDocument env host ts report) := by
  rw [writeReport_eq, String.toList_ofList, Json.parse_render]

theorem textCount_writeReport (host : Host) (ts : Int) (report : Counters Int) (f : Field) :
    textCount f.metric (writeReport env host ts report) = report.get f := by
  rw [textCount, parse_writeReport]
  simp only [readCount_metric, List.map_cons, List.map_nil, List.sum_cons, List.sum_nil, intOf,
    Int.add_zero]

/-- Numbering the posts does not change which are there. -/
private theorem filter_zipIdx (posts : List (Counters Int × Bool)) (sent : Bool) :
    (posts.zipIdx.filter (·.1.2 == sent)).map (·.1) = posts.filter (·.2 == sent) := by
  have numbered : posts.zipIdx.map (·.1) = posts := List.zipIdx_map_fst 0 posts
  conv => rhs; rw [← numbered, List.filter_map]
  rfl

private theorem sum_posts (sent : Bool) (f : Field) (tr : List (Deed n)) :
    (((tr.filterMap Deed.post?).filter (·.2 == sent)).map fun post => post.1.get f).sum
      = (tr.map (Deed.reports sent f)).sum := by
  induction tr with
  | nil => rfl
  | cons d tr ih =>
    cases d with
    | posted report answer =>
      by_cases same : answer = sent
      · simp [Deed.post?, Deed.reports, same, ih]
      · simp [Deed.post?, Deed.reports, same, ih]
    | worker i a =>
      rw [List.filterMap_cons_none rfl, ih, List.map_cons, List.sum_cons]
      exact (Int.zero_add _).symm
    | drained g value =>
      rw [List.filterMap_cons_none rfl, ih, List.map_cons, List.sum_cons]
      exact (Int.zero_add _).symm

/-- The texts count what the posts report. -/
theorem sum_textCount (host : Host) (clock : Nat → Int) (sent : Bool) (f : Field)
    (tr : List (Deed n)) :
    ((postedTexts env host clock sent tr).map (textCount f.metric)).sum
      = (tr.map (Deed.reports sent f)).sum := by
  rw [← sum_posts, ← filter_zipIdx, postedTexts, List.map_map, List.map_map]
  refine congrArg List.sum (List.map_congr_left ?_)
  intro p _
  exact textCount_writeReport env host _ _ f

/-- **What the statistics server adds up.** In every run, each text that is posted reads as one
document without repeated keys, the report of a post that answered so, with each counter under its
name exactly once. Of each counter, what the texts that were sent add up to is, with what is being
reported, what is shared and what the workers still owe, what was counted less what the texts that
were not sent add up to. -/
theorem reports_add_up (sends : env.config.statsSend = true) (host : Host) (clock : Nat → Int)
    (es : List (Turn n)) :
    (∀ sent, ∀ text ∈ postedTexts env host clock sent ((process env n).trace {} es),
      ∃ ts report, .posted report sent ∈ (process env n).trace {} es ∧
        Json.parse text.toList = some (reportDocument env host ts report) ∧
        (reportDocument env host ts report).NoRepeatedKeys ∧
        (∀ f : Field, readCount (reportDocument env host ts report) f.metric
          = [.int (report.get f)]) ∧
        readCount (reportDocument env host ts report) "queue" = [.int report.queue]) ∧
    ∀ f : Field,
      ((postedTexts env host clock true ((process env n).trace {} es)).map
            (textCount f.metric)).sum
          + ((process env n).state {} es).stats.taken f
          + ((process env n).state {} es).globalCounters.get f
          + ∑ i, (((process env n).state {} es).threads i).pending f
        = (process env n).income (increments env f) {} es
          - ((postedTexts env host clock false ((process env n).trace {} es)).map
              (textCount f.metric)).sum := by
  constructor
  · intro sent text mem
    obtain ⟨⟨post, k⟩, there, rfl⟩ := List.mem_map.mp mem
    obtain ⟨there, answered⟩ := List.mem_filter.mp there
    have numbered : post ∈ ((process env n).trace {} es).filterMap Deed.post? :=
      List.fst_mem_of_mem_zipIdx there
    obtain ⟨d, done, posts⟩ := List.mem_filterMap.mp numbered
    obtain ⟨report, answer⟩ := post
    cases d with
    | posted report' answer' =>
      cases posts
      have same : answer = sent := by simpa using answered
      subst same
      exact ⟨_, report, done, parse_writeReport env host _ report,
        reportDocument_keys env host _ report, readCount_metric env host _ report,
        readCount_queue env host _ report⟩
    | worker i a => cases posts
    | drained g value => cases posts
  · intro f
    rw [sum_textCount, sum_textCount]
    exact reports_account sends f es

/-- Two reports of one node, the first of which is lost. -/
theorem reports_add_up_twice :
    (∀ sent, ∀ text ∈ postedTexts (.plain {}) ⟨"host", "127.0.0.1"⟩ Int.ofNat sent
        ((process (.plain {}) 1).trace {} reportedTwice),
      ∃ ts report, .posted report sent ∈ (process (.plain {}) 1).trace {} reportedTwice ∧
        Json.parse text.toList
          = some (reportDocument (.plain {}) ⟨"host", "127.0.0.1"⟩ ts report) ∧
        (reportDocument (.plain {}) ⟨"host", "127.0.0.1"⟩ ts report).NoRepeatedKeys ∧
        (∀ f : Field, readCount (reportDocument (.plain {}) ⟨"host", "127.0.0.1"⟩ ts report)
          f.metric = [.int (report.get f)]) ∧
        readCount (reportDocument (.plain {}) ⟨"host", "127.0.0.1"⟩ ts report) "queue"
          = [.int report.queue]) ∧
    ∀ f : Field,
      ((postedTexts (.plain {}) ⟨"host", "127.0.0.1"⟩ Int.ofNat true
            ((process (.plain {}) 1).trace {} reportedTwice)).map (textCount f.metric)).sum
          + ((process (.plain {}) 1).state {} reportedTwice).stats.taken f
          + ((process (.plain {}) 1).state {} reportedTwice).globalCounters.get f
          + ∑ i, (((process (.plain {}) 1).state {} reportedTwice).threads i).pending f
        = (process (.plain {}) 1).income (increments (.plain {}) f) {} reportedTwice
          - ((postedTexts (.plain {}) ⟨"host", "127.0.0.1"⟩ Int.ofNat false
              ((process (.plain {}) 1).trace {} reportedTwice)).map (textCount f.metric)).sum :=
  reports_add_up (.plain {}) rfl ⟨"host", "127.0.0.1"⟩ Int.ofNat reportedTwice

end PeerNode
