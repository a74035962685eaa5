import Mathlib.Data.List.Forall2
import TraceRollup.Http.Client
import TraceRollup.Http.Server
import TraceRollup.Proofs.JsonText

/-!
# Messages on the wire

A message whose payload a text keeps is read back from its line, and a batch is cut at its line
breaks into exactly its messages. So a receiver is handed the messages that a client posts as they
were sent and in their order, and finds in each the record that was put in
(`Client.send_faithful`).
-/

namespace TraceRollup

/-! ### Records -/

theorem CallSummary.kept_encode (m : CallSummary) : Json.Kept 1 m.encode := by
  refine .obj (by simp only [List.map_cons, List.map_nil]; decide) fun member hm => ?_
  simp only [List.mem_cons, List.not_mem_nil, or_false] at hm
  rcases hm with rfl | rfl | rfl | rfl | rfl | rfl | rfl | rfl | rfl | rfl
  all_goals first
    | exact .ofInt32 _
    | exact .ofInt64 _
    | exact .ofUInt64 _

theorem SlowTrace.kept_encode (t : SlowTrace) : Json.Kept 1 t.encode := by
  refine .obj (by simp only [List.map_cons, List.map_nil]; decide) fun member hm => ?_
  simp only [List.mem_cons, List.not_mem_nil, or_false] at hm
  rcases hm with rfl | rfl
  · exact .ofInt64 t.millis
  · exact .str t.traceId

theorem ServiceStats.kept_encode (m : ServiceStats) : Json.Kept 3 m.encode := by
  refine .obj (by simp only [List.map_cons, List.map_nil]; decide) fun member hm => ?_
  have traces : Json.Kept 2 (.arr (m.slowTraces.map SlowTrace.encode)) := by
    refine .arr fun j hj => ?_
    obtain ⟨t, -, rfl⟩ := List.mem_map.1 hj
    exact t.kept_encode
  simp only [List.mem_cons, List.not_mem_nil, or_false] at hm
  rcases hm with rfl | rfl | rfl | rfl | rfl | rfl | rfl | rfl | rfl
  all_goals first
    | exact traces
    | exact (Json.Kept.ofInt32 _).mono (by decide)
    | exact (Json.Kept.ofInt64 _).mono (by decide)
    | exact (Json.Kept.ofUInt64 _).mono (by decide)

theorem Heartbeat.kept_encode (m : Heartbeat) : Json.Kept 1 m.encode := by
  refine .obj (by simp only [List.map_cons, List.map_nil]; decide) fun member hm => ?_
  simp only [List.mem_cons, List.not_mem_nil, or_false] at hm
  rcases hm with rfl | rfl | rfl | rfl
  all_goals first
    | exact .ofInt32 _
    | exact .ofInt64 _
    | exact .ofUInt64 _

/-- All records but alarms, which hold doubles, are kept. -/
theorem RecordKind.kept_encode {k : RecordKind} (h : k ≠ .alarm) (r : k.Carrier) :
    Json.Kept 3 (Rollup.encode r) := by
  cases k with
  | callSummary => exact (CallSummary.kept_encode r).mono (by decide)
  | serviceStats => exact ServiceStats.kept_encode r
  | heartbeat => exact (Heartbeat.kept_encode r).mono (by decide)
  | alarm => exact absurd rfl h

/-! ### Lines -/

namespace WireMessage

/-- The payload of a message can be written and read back. -/
def Sendable (m : WireMessage) : Prop := ∃ depth < maxDepth, Json.Kept depth m.payload

theorem exact_toJson {m : WireMessage} (h : m.Sendable) : m.toJson.exact := by
  obtain ⟨depth, -, hpayload⟩ := h
  have hpipeline := m.pipeline.number.toNat_lt
  have hstage := m.stage.number.toNat_lt
  exact ⟨⟨by omega, by omega⟩, ⟨by omega, by omega⟩, trivial, trivial, hpayload.exact, trivial⟩

theorem record?_toJson (m : WireMessage) :
    m.toJson.record? fieldNames = some [some (.ofNat m.pipeline.number.toNat), some (.ofNat m.stage.number.toNat),
      some (.str m.tag), some (.str m.origin), some m.payload] := rfl

theorem nat?_ofNat {bits n : Nat} (h : n < Nat.pow 2 bits) : (Json.ofNat n).nat? bits = some n := by
  have hbound : (n : Int) ≤ ((Nat.pow 2 bits : Nat) : Int) - 1 := by omega
  simp only [Json.nat?, Json.ofNat, Json.intBetween?]
  rw [if_pos ⟨Int.natCast_nonneg n, hbound⟩, Option.map_some, Int.toNat_natCast]

theorem parse?_line {m : WireMessage} (h : m.Sendable) : parse? m.line = some m := by
  have hparse : Json.parse m.line = some m.toJson := Json.parse_render (exact_toJson h)
  obtain ⟨depth, hdepth, hpayload⟩ := h
  have hpipeline : (Json.ofNat m.pipeline.number.toNat).nat? 16 = some m.pipeline.number.toNat :=
    nat?_ofNat m.pipeline.number.toNat_lt
  have hstage : (Json.ofNat m.stage.number.toNat).nat? 32 = some m.stage.number.toNat :=
    nat?_ofNat m.stage.number.toNat_lt
  have hread : ofJson? m.toJson = some m := by
    simp only [ofJson?, record?_toJson, Option.bind_eq_bind, Option.bind_some, Json.readable_of_exact _ hpayload.exact,
      if_true, hpipeline, hstage, Json.string?, hpayload.normal, UInt16.ofNat_toNat, UInt32.ofNat_toNat,
      Option.pure_def]
  have hshallow : m.payload.depth < maxDepth := Nat.lt_of_le_of_lt hpayload.shallow hdepth
  simp only [parse?, hparse, Option.bind_eq_bind, Option.bind_some, record?_toJson, if_pos hshallow, hread]

theorem newline_notMem_line {m : WireMessage} (h : m.Sendable) : Text.newline ∉ Text.bytes m.line := by
  intro hbyte
  have hchar := Text.newline_mem_bytes hbyte
  rw [line, Json.render, String.toList_ofList] at hchar
  exact Json.newline_notMem_renderChars m.toJson (exact_toJson h) hchar

theorem notBlank_line (m : WireMessage) : Ndjson.isBlank (Text.bytes m.line) = false := by
  obtain ⟨cs, hopen⟩ : ∃ cs, m.line.toList = '{' :: cs := by
    rw [line, Json.render, String.toList_ofList, toJson, Json.renderChars]
    exact ⟨_, rfl⟩
  have hbrace : String.utf8EncodeChar '{' = [123] := by decide
  rw [Text.bytes, hopen, List.flatMap_cons, hbrace, Ndjson.isBlank, List.singleton_append, List.all_cons]
  rfl

end WireMessage

/-! ### Batches -/

namespace Ndjson

open Text (newline)

theorem lines_body {ms : List WireMessage} (h : ∀ m ∈ ms, m.Sendable) :
    lines (body ms) = (ms.map fun m => Text.bytes m.line) ++ [[]] := by
  have hlines : ∀ l ∈ ms.map fun m => Text.bytes m.line, newline ∉ l := by
    intro l hl
    obtain ⟨m, hm, rfl⟩ := List.mem_map.1 hl
    exact WireMessage.newline_notMem_line (h m hm)
  have hcut := lines_flatMap hlines
  rw [List.flatMap_map] at hcut
  exact hcut

/-- No line of a batch is passed over, and there is none besides its messages. -/
theorem filled_body {ms : List WireMessage} (h : ∀ m ∈ ms, m.Sendable) :
    filled (body ms) = ms.map fun m => Text.bytes m.line := by
  rw [filled, lines_body h, List.filter_append]
  have hall : (ms.map fun m => Text.bytes m.line).filter (fun l => !isBlank l) = ms.map fun m => Text.bytes m.line := by
    rw [List.filter_eq_self]
    intro l hl
    obtain ⟨m, -, rfl⟩ := List.mem_map.1 hl
    rw [WireMessage.notBlank_line m]
    rfl
  rw [hall]
  exact List.append_nil _

theorem message?_line {m : WireMessage} (h : m.Sendable) : message? (Text.bytes m.line) = some m := by
  rw [message?, Text.ofBytes?_bytes, Option.bind_some, WireMessage.parse?_line h]

theorem messages_body {ms : List WireMessage} (h : ∀ m ∈ ms, m.Sendable) :
    (filled (body ms)).map message? = ms.map some := by
  rw [filled_body h, List.map_map]
  refine List.map_congr_left fun m hm => ?_
  rw [Function.comp_apply, message?_line (h m hm)]

end Ndjson

namespace Receiver
variable {σ : Type}

/-- Delivers messages one after the other. -/
def deliverAll (r : Receiver σ) (t : Tally × σ) (ms : List WireMessage) : Tally × σ :=
  ms.foldl (fun t m => let d := r.deliver t.2 m; (t.1.note d.1.isOk, d.2)) t

theorem takeBatch_body (r : Receiver σ) (s : σ) {ms : List WireMessage} (h : ∀ m ∈ ms, m.Sendable) :
    r.takeBatch s (Ndjson.body ms) = r.deliverAll ({}, s) ms := by
  rw [takeBatch, Ndjson.filled_body h, List.foldl_map, deliverAll]
  refine List.foldl_ext _ _ _ fun t m hm => ?_
  rw [takeLine, Ndjson.message?_line (h m hm)]

end Receiver

namespace Http

/-! ### Posts -/

/-- The request that a post makes, for a way to pack bodies. -/
def Post.request (pack : List UInt8 → List UInt8) (p : Post) : Request where
  path := p.target.path
  headers := ("Content-Type", Post.contentType) :: (p.coding.header?.map fun v => ("Content-Encoding", v)).toList
  body := match p.coding with
    | .plain => p.body
    | .gzip => pack p.body

theorem Post.isGzip_request (pack : List UInt8 → List UInt8) (p : Post) :
    (p.request pack).isGzip = decide (p.coding = .gzip) := by
  have hkind : "Content-Type".toLower = "content-type" := by decide +kernel
  have hcoding : "Content-Encoding".toLower = "content-encoding" := by decide +kernel
  have hgzip : "gzip".toLower = "gzip" := by decide +kernel
  rcases p with ⟨target, coding, body⟩
  cases coding with
  | plain => simp [Request.isGzip, Request.header?, request, Coding.header?, hkind]
  | gzip => simp [Request.isGzip, Request.header?, request, Coding.header?, hkind, hcoding, hgzip]

theorem takeMessages_request {σ : Type} (receiver : Receiver σ) {pack : List UInt8 → List UInt8} {unpack : Unpacker}
    (hlossless : ∀ bytes, unpack (pack bytes) = .ok bytes) (s : σ) (p : Post) :
    takeMessages receiver unpack s (p.request pack) =
      (.tally (receiver.takeBatch s p.body).1, (receiver.takeBatch s p.body).2) := by
  rw [takeMessages, p.isGzip_request pack]
  rcases p with ⟨target, coding, body⟩
  cases coding with
  | plain => rfl
  | gzip => simp [Post.request, hlossless]

/-- Only the host and the port decide whether an address can be read. -/
theorem Url.isOk_ofRest (secure : Bool) (cs : List Char) :
    let cut := cutHost (afterLast '@' ((cs.dropWhile isSlash).takeWhile fun c => !endsAuthority c))
    (ofRest secure cs).isOk = ((host? cut.1).isOk && (portNumber? secure cut.2).isOk) := by
  intro cut
  change (host? cut.1 >>= _).isOk = _
  cases host? cut.1 with
  | error fault => rfl
  | ok host =>
    change (portNumber? secure cut.2 >>= _).isOk = _
    cases portNumber? secure cut.2 <;> rfl

namespace Client

/-- A post is built if the compression is known and the node has an address. -/
theorem post_cases (c : Client) (node : String) (batch : List WireMessage) :
    (∃ coding target, Coding.ofSetting? c.compression = some coding ∧ Url.parse (endpoint node) = .ok target ∧
      c.post node batch = .ok ⟨target, coding, Ndjson.body batch⟩) ∨
    (∃ fault, c.post node batch = .error fault ∧
      (Coding.ofSetting? c.compression = none ∨ ∃ bad, Url.parse (endpoint node) = .error bad)) := by
  unfold post
  cases hcoding : Coding.ofSetting? c.compression with
  | none => exact Or.inr ⟨_, rfl, Or.inl rfl⟩
  | some coding =>
    cases htarget : Url.parse (endpoint node) with
    | error bad => exact Or.inr ⟨_, rfl, Or.inr ⟨bad, rfl⟩⟩
    | ok target => exact Or.inl ⟨coding, target, rfl, rfl, rfl⟩

/-- The compression is known, the node has an address, and the post of a batch is answered with success. -/
def Lands (c : Client) (net : Network) (node : String) (batch : List WireMessage) : Prop :=
  ∃ coding target status, Coding.ofSetting? c.compression = some coding ∧ Url.parse (endpoint node) = .ok target ∧
    net ⟨target, coding, Ndjson.body batch⟩ = .ok status ∧ status.isSuccess = true

/-- A batch that lands has been posted and sends the next on its way. Another ends the sending, posted or not. -/
theorem sendBatch_cases (c : Client) (net : Network) (node : String) (batch : List WireMessage) :
    (c.Lands net node batch ∧ ∃ p, p.body = Ndjson.body batch ∧ c.sendBatch net node batch = (some p, none)) ∨
    (¬ c.Lands net node batch ∧ ∃ arrived fault, (arrived = none ∨ ∃ p, arrived = some p ∧ p.body = Ndjson.body batch) ∧
      c.sendBatch net node batch = (arrived, some fault)) := by
  rcases c.post_cases node batch with ⟨coding, target, hcoding, htarget, hpost⟩ | ⟨fault, hpost, hbad⟩
  · have hiff : c.Lands net node batch ↔
        ∃ status, net ⟨target, coding, Ndjson.body batch⟩ = .ok status ∧ status.isSuccess = true := by
      simp only [Lands, hcoding, htarget, Option.some.injEq, Except.ok.injEq, exists_and_left, exists_eq_left']
    cases hnet : net ⟨target, coding, Ndjson.body batch⟩ with
    | error fault =>
      have hnot : ¬ c.Lands net node batch := by
        simp only [hiff, hnet, reduceCtorEq, false_and, exists_false, not_false_iff]
      exact Or.inr ⟨hnot, none, .noConnection target fault, Or.inl rfl, by simp only [sendBatch, hpost, hnet]⟩
    | ok status =>
      have hsuccess : c.Lands net node batch ↔ status.isSuccess = true := by
        simp only [hiff, hnet, Except.ok.injEq, exists_eq_left']
      cases hstatus : status.isSuccess with
      | true =>
        refine Or.inl ⟨hsuccess.2 hstatus, ⟨target, coding, Ndjson.body batch⟩, rfl, ?_⟩
        simp only [sendBatch, hpost, hnet, hstatus, if_true]
      | false =>
        refine Or.inr ⟨fun hlands => ?_, some ⟨target, coding, Ndjson.body batch⟩, .unwelcome status,
          Or.inr ⟨_, rfl, rfl⟩, ?_⟩
        · cases hstatus.symm.trans (hsuccess.1 hlands)
        · simp only [sendBatch, hpost, hnet, hstatus, Bool.false_eq_true, if_false]
  · refine Or.inr ⟨?_, none, fault, Or.inl rfl, by simp only [sendBatch, hpost]⟩
    rintro ⟨coding, target, status, hcoding, htarget, -⟩
    rcases hbad with hnone | ⟨bad, herror⟩
    · cases hnone.symm.trans hcoding
    · cases herror.symm.trans htarget

/-- What arrived are the first batches, with all up to the first that does not land. -/
theorem sendBatches_arrived (c : Client) (net : Network) (node : String) (batches : List (List WireMessage)) :
    ∃ sent, sent <+: batches ∧ (c.sendBatches net node batches).1.map Post.body = sent.map Ndjson.body ∧
      ((c.sendBatches net node batches).2 = .ok () ↔ ∀ batch ∈ batches, c.Lands net node batch) ∧
      ∀ first, first <+: batches → (∀ batch ∈ first, c.Lands net node batch) → first <+: sent := by
  induction batches with
  | nil => exact ⟨[], List.nil_prefix, rfl, ⟨fun _ _ h => absurd h List.not_mem_nil, fun _ => rfl⟩, fun _ h _ => h⟩
  | cons batch rest ih =>
    obtain ⟨sent, hprefix, hbodies, hok, hfirst⟩ := ih
    rcases c.sendBatch_cases net node batch with ⟨hlands, p, hbody, hsend⟩ | ⟨hnot, arrived, fault, harrived, hsend⟩
    · refine ⟨batch :: sent, (List.prefix_cons_inj batch).2 hprefix, ?_, ?_, fun first hbefore hall => ?_⟩
      · simp only [sendBatches, hsend, Option.toList_some, List.singleton_append, List.map_cons, hbody, hbodies]
      · simp only [sendBatches, hsend, hok, List.forall_mem_cons, hlands, true_and]
      · cases first with
        | nil => exact List.nil_prefix
        | cons b first =>
          obtain ⟨rfl, hafter⟩ := List.cons_prefix_cons.1 hbefore
          apply (List.prefix_cons_inj b).2
          exact hfirst first hafter fun a ha => hall a (List.mem_cons_of_mem b ha)
    · -- no batch behind this one is posted, and it has been posted itself only if an answer came
      have hfails : ¬ ∀ a ∈ batch :: rest, c.Lands net node a := fun hall => hnot (hall batch List.mem_cons_self)
      have hresult : (c.sendBatches net node (batch :: rest)).2 = .ok () ↔ ∀ a ∈ batch :: rest, c.Lands net node a := by
        simp only [sendBatches, hsend, reduceCtorEq, hfails]
      have hnothing : ∀ first sent : List (List WireMessage), first <+: batch :: rest →
          (∀ a ∈ first, c.Lands net node a) → first <+: sent := by
        intro first sent hbefore hall
        cases first with
        | nil => exact List.nil_prefix
        | cons b first =>
          obtain ⟨rfl, -⟩ := List.cons_prefix_cons.1 hbefore
          exact absurd (hall b List.mem_cons_self) hnot
      rcases harrived with rfl | ⟨p, rfl, hbody⟩
      · refine ⟨[], List.nil_prefix, ?_, hresult, fun first => hnothing first []⟩
        simp only [sendBatches, hsend, Option.toList_none, List.map_nil]
      · refine ⟨[batch], ⟨rest, rfl⟩, ?_, hresult, fun first => hnothing first [batch]⟩
        simp only [sendBatches, hsend, Option.toList_some, List.map_cons, List.map_nil, hbody]

end Client

/-! ### Envelopes -/

/-- A record on its way to a stage. -/
structure Envelope where
  pipeline : PipelineId
  stage : StageId
  kind : RecordKind
  snapshot : Snapshot kind.Carrier
  kept : kind ≠ .alarm

namespace Envelope

def message (e : Envelope) : WireMessage := .ofSnapshot e.pipeline e.stage e.snapshot

theorem sendable_message (e : Envelope) : e.message.Sendable :=
  ⟨3, by decide, RecordKind.kept_encode e.kept e.snapshot.record⟩

theorem snapshot_message (e : Envelope) : e.message.snapshot = .ok e.snapshot :=
  WireMessage.snapshot_ofSnapshot e.pipeline e.stage e.snapshot (e.kind.decode?_encode e.snapshot.record)

end Envelope

/-- Whatever the size of the batches, their lines are the messages in their order, and every
message holds the record that was put in. The sending succeeds exactly if every batch lands. What is
posted are the bodies of the first batches, with all up to the first that does not land, so of all
batches if the sending succeeds; a receiver of these requests has been handed their messages, one
after the other and none malformed. -/
theorem Client.send_faithful (c : Client) (net : Network) (node : String) (es : List Envelope)
    {pack : List UInt8 → List UInt8} {unpack : Unpacker} (hlossless : ∀ bytes, unpack (pack bytes) = .ok bytes) :
    let messages := es.map Envelope.message
    let sending := c.send net node messages
    ((c.batches messages).flatMap fun batch => (Ndjson.filled (Ndjson.body batch)).map Ndjson.message?) =
        messages.map some ∧
      (∀ e ∈ es, e.message.snapshot = .ok e.snapshot) ∧
      (sending.2 = .ok () ↔ ∀ batch ∈ c.batches messages, c.Lands net node batch) ∧
      (sending.2 = .ok () → sending.1.map Post.body = (c.batches messages).map Ndjson.body) ∧
      ∃ sent, sent <+: c.batches messages ∧ (sending.2 = .ok () → sent.flatten = messages) ∧
        sending.1.map Post.body = sent.map Ndjson.body ∧
        (∀ first, first <+: c.batches messages → (∀ batch ∈ first, c.Lands net node batch) → first <+: sent) ∧
        List.Forall₂ (fun post batch => ∀ {σ : Type} (receiver : Receiver σ) (s : σ),
          takeMessages receiver unpack s (post.request pack) =
            (.tally (receiver.deliverAll ({}, s) batch).1, (receiver.deliverAll ({}, s) batch).2)) sending.1 sent := by
  intro messages sending
  have hsendable : ∀ m ∈ messages, m.Sendable := by
    intro m hm
    obtain ⟨e, -, rfl⟩ := List.mem_map.1 hm
    exact e.sendable_message
  have hbatches : ∀ batch ∈ c.batches messages, ∀ m ∈ batch, m.Sendable := by
    intro batch hbatch m hm
    exact hsendable m (c.flatten_batches messages ▸ List.mem_flatten.2 ⟨batch, hbatch, hm⟩)
  have hparsed : ∀ batch ∈ c.batches messages,
      (Ndjson.filled (Ndjson.body batch)).map Ndjson.message? = batch.map some :=
    fun batch hbatch => Ndjson.messages_body (hbatches batch hbatch)
  obtain ⟨sent, hprefix, hbodies, hlands, hfirst⟩ := c.sendBatches_arrived net node (c.batches messages)
  have hall : sending.2 = .ok () → sent = c.batches messages := by
    intro hok
    exact hprefix.eq_of_length_le (hfirst _ (List.prefix_refl _) (hlands.1 hok)).length_le
  refine ⟨?_, fun e _ => e.snapshot_message, hlands, fun hok => ?_, sent, hprefix, fun hok => ?_, hbodies, hfirst, ?_⟩
  · rw [List.flatMap_congr hparsed, List.flatMap_def, ← List.map_flatten, c.flatten_batches messages]
  · exact hall hok ▸ hbodies
  · rw [hall hok, c.flatten_batches messages]
  · have harrived : List.Forall₂ (fun post batch => post.body = Ndjson.body batch) sending.1 sent := by
      rw [← List.forall₂_map_left_iff (f := Post.body) (R := fun body batch => body = Ndjson.body batch),
        ← List.forall₂_map_right_iff (f := Ndjson.body), List.forall₂_eq_eq_eq]
      exact hbodies
    rw [List.forall₂_iff_zip] at harrived ⊢
    refine ⟨harrived.1, fun {post batch} hzip σ receiver s => ?_⟩
    have hbatch : batch ∈ c.batches messages := hprefix.subset (List.of_mem_zip hzip).2
    rw [takeMessages_request receiver hlossless s post, harrived.2 hzip, receiver.takeBatch_body s (hbatches batch hbatch)]

/-- Two messages in two batches, with line breaks and quotes in their texts, to a node that takes both. -/
theorem Client.send_faithful_twoBatches :
    let stats : ServiceStats := ⟨7, 3, ⟨299901010000⟩, 1, 0, 5, 5, 5, [⟨5, "a\n\"b\\"⟩]⟩
    let beat : Heartbeat := ⟨-1, 3, ⟨29990101⟩, -9223372036854775808⟩
    let first : Envelope := ⟨⟨2⟩, ⟨23⟩, .serviceStats, ⟨"n\r\n1", stats⟩, by decide⟩
    let second : Envelope := ⟨⟨3⟩, ⟨33⟩, .heartbeat, ⟨"\x00ä", beat⟩, by decide⟩
    let c : Client := ⟨"none", 1⟩
    let sending := c.send (fun _ => .ok .ok) "peer:11800" ([first, second].map Envelope.message)
    (∀ bytes : List UInt8, (Except.ok (id bytes) : Except GzipFault (List UInt8)) = .ok bytes) ∧
      ((c.batches ([first, second].map Envelope.message)).flatMap fun batch =>
        (Ndjson.filled (Ndjson.body batch)).map Ndjson.message?) = [some first.message, some second.message] ∧
      (∀ e ∈ [first, second], e.message.snapshot = .ok e.snapshot) ∧ sending.2 = .ok () ∧
      sending.1.map Post.body = [Ndjson.body [first.message], Ndjson.body [second.message]] := by
  intro stats beat first second c sending
  have hlossless : ∀ bytes : List UInt8, (Except.ok (id bytes) : Except GzipFault (List UInt8)) = .ok bytes :=
    fun _ => rfl
  have htarget : (Url.parse (endpoint "peer:11800")).isOk = true := by
    have hendpoint : endpoint "peer:11800" = "http://peer:11800/remote" := by decide +kernel
    rw [hendpoint]
    dsimp only [Url.parse]
    rw [if_neg (by decide +kernel), if_pos (by decide +kernel), Url.isOk_ofRest]
    decide +kernel
  have hlands : ∀ batch, c.Lands (fun _ => .ok .ok) "peer:11800" batch := by
    intro batch
    cases htarget' : Url.parse (endpoint "peer:11800") with
    | error fault => cases htarget'.symm ▸ htarget
    | ok target => exact ⟨.plain, target, .ok, rfl, htarget', rfl, rfl⟩
  obtain ⟨hlines, hrecords, hok, hposted, -⟩ :=
    c.send_faithful (fun _ => .ok .ok) "peer:11800" [first, second] hlossless
  have hsent : sending.2 = .ok () := hok.2 fun batch _ => hlands batch
  have hbatches : c.batches ([first, second].map Envelope.message) = [[first.message], [second.message]] := by
    simp [c, batches, chunks]
  refine ⟨hlossless, hlines, hrecords, hsent, ?_⟩
  rw [hposted hsent, hbatches, List.map_cons, List.map_cons, List.map_nil]

end Http
end TraceRollup
