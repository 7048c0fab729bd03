import ApiWhatsApp.Webhooks.Catalogue
import Mathlib.Logic.Equiv.List

/-!
# Events that are never processed

Whether the processing of one event ends with the mark. One entry that cannot be used makes the whole
event fail, and it is then tried again for ever, with every other status that it carries.

* `Harmless` is the condition on the payload and the database, and `Settled` is what should happen:
  the event is marked as processed, and every status in it is applied.
* `services_iff` puts the three services together.
* **`timestamps_poison`** — one holds exactly when the other does. `poisoned_event` is a payload in
  which a received message with an impossible timestamp holds back a delivery.
-/

namespace ApiWhatsApp

open Library

namespace EventEnvironment

variable {env : EventEnvironment} {db s : Db} {payload : Json}

/-! ## The event -/

/-- An exception or not, the services leave the events alone. -/
theorem webhookEvents_processInbound (env : EventEnvironment) (db : Db) (payload : Json) :
    (env.processInbound db payload).1.webhookEvents = db.webhookEvents := by
  refine forEach_invariant (P := fun x : Db => x.webhookEvents = db.webhookEvents) rfl
    fun x change _ hx => ?_
  unfold storeChange
  split
  · exact hx
  · split
    · exact hx
    · refine forEach_invariant (P := fun y : Db => y.webhookEvents = db.webhookEvents) hx
        fun y item _ hy => ?_
      exact (storeMessage_frame env y item).2.trans hy

/-- The statuses leave the events. -/
theorem webhookEvents_processStatuses (env : EventEnvironment) (db : Db) (payload : Json) :
    (env.processStatuses db payload).1.webhookEvents = db.webhookEvents := by
  refine forEach_invariant (P := fun x : Db => x.webhookEvents = db.webhookEvents) rfl
    fun x e _ hx => ?_
  unfold applyEntry
  split
  · next x' happly =>
      rcases applyStatus_cases happly with ⟨rfl, -⟩ | ⟨_, _, _, -, -, -, -, hsame, -⟩
      · exact hx
      · exact hsame.trans hx
  · exact hx

/-- The services leave the events. -/
theorem webhookEvents_services (env : EventEnvironment) (db : Db) (payload : Json) :
    (env.services db payload).1.webhookEvents = db.webhookEvents := by
  have hinbound := webhookEvents_processInbound env db payload
  unfold services
  rcases hdb₁ : env.processInbound db payload with ⟨db₁, _ | error⟩
  · rw [hdb₁] at hinbound
    have htemplates : (env.processTemplates db₁ payload).1.webhookEvents = db₁.webhookEvents :=
      (processTemplates_spec rfl rfl).2.2
    dsimp only
    rcases hdb₂ : env.processTemplates db₁ payload with ⟨db₂, _ | error⟩
    · rw [hdb₂] at htemplates
      exact (webhookEvents_processStatuses env db₂ payload).trans (htemplates.trans hinbound)
    · rw [hdb₂] at htemplates
      exact htemplates.trans hinbound
  · rw [hdb₁] at hinbound
    exact hinbound

/-- What a payload must be like, in this database, for its event to be processed. -/
structure Harmless (db : Db) (payload : Json) : Prop where
  phones : PhonesValid payload
  windows : WindowsFit db payload
  templates : (catalogueOf db.templates).Accepts db.phoneNumbers (extractUpdates payload)
  reports : ∀ report ∈ extractStatuses payload, (mapStatus report.status).isSome = true →
    db.Stored report.id ∨ Mentions payload report.id → TimestampFits 0 report.timestamp

/-- The statuses of the payload are applied: the row of every message has taken all reports about it,
and each of them is recorded. -/
def Applied (env : EventEnvironment) (db : Db) (payload : Json) (final : Db) : Prop :=
  ∀ m ∈ db.messages.rows, ∀ p, m.providerMessageId = some p →
    m.foldStatus ((env.entries payload).filter fun e => e.2.id = p) ∈ final.messages.rows ∧
    ∀ e ∈ env.entries payload, e.2.id = p → ∀ target, mapStatus e.2.status = some target →
      ∃ at_, timestampOrNow e.1 e.2.timestamp = some at_ ∧
        { messageId := m.id, status := target, createdAt := at_ } ∈ final.statusEvents

/-- The event is marked as processed, and its statuses are applied. -/
def Settled (env : EventEnvironment) (db : Db) (event : WebhookEvent) : Prop :=
  (∃ row, (env.processEvent db event).webhookEvents.find event.id = some row ∧
      row.processed = true) ∧
    env.Applied db event.payload (env.processEvent db event)

/-- A date that `parseTimestamp` returns can be represented. -/
theorem le_maxDate_of_parseTimestamp {timestamp : Option String} {at_ : Time}
    (h : parseTimestamp timestamp = .valid at_) : at_ ≤ maxDate := by
  unfold parseTimestamp at h
  split at h
  · cases h
  split at h
  · cases h
  split_ifs at h
  split at h
  · next instant hdate =>
      cases h
      exact le_maxDate_of_date hdate
  · cases h

/-- A time is stored just when it fits. -/
theorem isSome_timestampOrNow_iff {now : Time} {timestamp : Option String} (hnow : now ≤ maxDate) :
    (timestampOrNow now timestamp).isSome = true ↔ TimestampFits 0 timestamp := by
  have hroom : now + 0 ≤ maxDate := hnow
  rw [← timestampOrNow_iff hroom timestamp, Option.isSome_iff_exists]
  refine ⟨fun ⟨at_, hat⟩ => ⟨at_, hat, ?_⟩, fun ⟨at_, hat, _⟩ => ⟨at_, hat⟩⟩
  unfold timestampOrNow at hat
  split at hat
  · cases hat
    exact hnow
  · cases hat
  · next instant hparse =>
      cases hat
      exact le_maxDate_of_parseTimestamp hparse

/-- The clocks show instants that have a day and more to come. -/
structure InRange (env : EventEnvironment) : Prop where
  inbound : ∀ q, env.inboundClock q + serviceWindowMs ≤ maxDate
  reports : ∀ i, env.reportClock i ≤ maxDate

/-- The entries are the statuses of the payload, each with its time. -/
theorem mem_entries {e : Time × MetaMessageStatus} :
    e ∈ env.entries payload ↔
      ∃ i, ∃ h : i < (extractStatuses payload).length,
        (env.reportClock i, (extractStatuses payload)[i]) = e := by
  simp only [entries, List.mem_mapIdx]

/-- The ids that are stored when the statuses are read: the old ones and those of the payload. -/
theorem exists_mem_inboundItems_iff {q : String}
    (hsenders : ∀ change ∈ inboundChanges payload, (db.senderOf change).isSome = true) :
    (∃ item ∈ db.inboundItems payload, item.2.2.id = q) ↔ Mentions payload q := by
  have hmem : ∀ message, message ∈ inboundMessages payload ↔
      ∃ item ∈ db.inboundItems payload, item.2.2 = message := by
    intro message
    rw [← map_inboundItems hsenders, List.mem_map]
  constructor
  · rintro ⟨item, hitem, hid⟩
    obtain ⟨change, hchange, hmessage⟩ :=
      List.mem_flatMap.mp ((hmem item.2.2).mpr ⟨item, hitem, rfl⟩)
    exact ⟨change, hchange, item.2.2, hmessage, hid⟩
  · rintro ⟨change, hchange, message, hmessage, hid⟩
    obtain ⟨item, hitem, heq⟩ :=
      (hmem message).mp (List.mem_flatMap.mpr ⟨change, hchange, hmessage⟩)
    exact ⟨item, hitem, by rw [heq, hid]⟩

/-- The database when the messages and the templates have gone through. -/
theorem stage_of_processTemplates {db₁ db₂ : Db}
    (hsenders : ∀ change ∈ inboundChanges payload, (db.senderOf change).isSome = true)
    (hstage : env.InboundStage db (db.inboundItems payload) db₁)
    (htemplates : env.processTemplates db₁ payload = (db₂, none)) :
    (∀ m ∈ db.messages.rows, m ∈ db₂.messages.rows) ∧
      ∀ q, db₂.Stored q ↔ db.Stored q ∨ Mentions payload q := by
  have hmessages : (env.processTemplates db₁ payload).1.messages = db₁.messages :=
    (processTemplates_spec rfl rfl).2.1
  rw [htemplates] at hmessages
  refine ⟨fun m hm => ?_, fun q => ?_⟩
  · rw [hmessages]
    exact hstage.rows m hm
  · rw [Db.Stored, hmessages, ← exists_mem_inboundItems_iff hsenders]
    exact hstage.stored q

/-- The reports can be applied when their timestamps fit. -/
theorem reportable_iff (hclock : env.InRange) {stored : String → Prop}
    (hstored : ∀ q, s.Stored q ↔ stored q) :
    (∀ e ∈ env.entries payload, Reportable s [] e) ↔
      ∀ report ∈ extractStatuses payload, (mapStatus report.status).isSome = true →
        stored report.id → TimestampFits 0 report.timestamp := by
  constructor
  · intro h report hreport hknown hreported
    obtain ⟨i, hi, rfl⟩ := List.mem_iff_getElem.mp hreport
    have hsome := h _ (mem_entries.mpr ⟨i, hi, rfl⟩) hknown ((hstored _).mpr hreported)
    exact (isSome_timestampOrNow_iff (hclock.reports i)).mp hsome
  · intro h e he hknown hreported
    obtain ⟨i, hi, rfl⟩ := mem_entries.mp he
    have hfits := h _ (List.getElem_mem hi) hknown ((hstored _).mp hreported)
    exact (isSome_timestampOrNow_iff (hclock.reports i)).mpr hfits

/-- The services go through exactly when the payload is harmless. -/
theorem services_iff (hclock : env.InRange) (hfresh : env.Fresh db)
    (hsenders : ∀ change ∈ inboundChanges payload, (db.senderOf change).isSome = true) :
    ((env.services db payload).2 = none ↔ Harmless db payload) ∧
      ((env.services db payload).2 = none →
        env.Applied db payload (env.services db payload).1) := by
  obtain ⟨hinbound, hstage⟩ := processInbound_spec hclock.inbound hfresh hsenders
  unfold services
  rcases hdb₁ : env.processInbound db payload with ⟨db₁, _ | error⟩
  swap
  · rw [hdb₁] at hinbound
    refine ⟨⟨fun herror => absurd herror (Option.some_ne_none _), fun h => ?_⟩,
      fun herror => absurd herror (Option.some_ne_none _)⟩
    exact absurd (hinbound.mpr ⟨h.phones, h.windows⟩) (Option.some_ne_none _)
  rw [hdb₁] at hinbound hstage
  obtain ⟨hphones, hwindows⟩ := hinbound.mp rfl
  have hstage := hstage rfl
  have htemplates : (env.processTemplates db₁ payload).2 = none ↔
      (catalogueOf db.templates).Accepts db.phoneNumbers (extractUpdates payload) := by
    rw [(processTemplates_spec hstage.phoneNumbers hstage.templates).1]
    exact processTemplates_iff hfresh
  dsimp only
  rcases hdb₂ : env.processTemplates db₁ payload with ⟨db₂, _ | error⟩
  swap
  · rw [hdb₂] at htemplates
    refine ⟨⟨fun herror => absurd herror (Option.some_ne_none _), fun h => ?_⟩,
      fun herror => absurd herror (Option.some_ne_none _)⟩
    exact absurd (htemplates.mpr h.templates) (Option.some_ne_none _)
  rw [hdb₂] at htemplates
  obtain ⟨hrows, hstored⟩ := stage_of_processTemplates hsenders hstage hdb₂
  obtain ⟨hstatuses, hfinal⟩ := processStatuses_spec env db₂ payload
  refine ⟨?_, fun hnone m hm p hp => ?_⟩
  · rw [hstatuses, reportable_iff hclock hstored]
    exact ⟨fun h => ⟨hphones, hwindows, htemplates.mp rfl, h⟩, fun h => h.reports⟩
  · have happlied := hfinal hnone
    refine ⟨happlied.rows m (hrows m hm) p hp, fun e he hid target htarget => ?_⟩
    exact happlied.events m (hrows m hm) e he (by rw [hid]; exact hp) target htarget

/-- The event is found after its update. -/
theorem find_updateWebhookEvent {event : WebhookEvent} {f : WebhookEvent → WebhookEvent}
    {hf : ∀ e, Keyed.keys (f e) = Keyed.keys e}
    (h : db.webhookEvents.find event.id = some event) :
    (db.updateWebhookEvent event.id f hf).webhookEvents.find event.id = some (f event) := by
  refine (Table.find_updateWhere db.webhookEvents _ f hf event.id).trans ?_
  rw [h, Option.map_some, if_pos (decide_eq_true rfl)]

/-- An event is marked exactly when its services go through. -/
theorem find_processEvent (env : EventEnvironment) {event : WebhookEvent}
    (hevent : db.webhookEvents.find event.id = some event) (hpending : event.processed = false) :
    ∃ row, (env.processEvent db event).webhookEvents.find event.id = some row ∧
      (row.processed = true ↔ (env.services db event.payload).2 = none) := by
  have hfind := webhookEvents_services env db event.payload
  unfold processEvent
  rcases hservices : env.services db event.payload with ⟨db', _ | error⟩
  · rw [hservices] at hfind
    rw [← hfind] at hevent
    exact ⟨_, find_updateWebhookEvent hevent, ⟨fun _ => rfl, fun _ => rfl⟩⟩
  · rw [hservices] at hfind
    rw [← hfind] at hevent
    refine ⟨_, find_updateWebhookEvent hevent, ?_⟩
    simp [WebhookEvent.recordError, hpending]

/-- The mark and the record of an exception touch the events only. -/
theorem messages_processEvent (env : EventEnvironment) (db : Db) (event : WebhookEvent) :
    (env.processEvent db event).messages = (env.services db event.payload).1.messages ∧
      (env.processEvent db event).statusEvents =
        (env.services db event.payload).1.statusEvents := by
  unfold processEvent
  rcases env.services db event.payload with ⟨db', _ | error⟩
  · exact ⟨rfl, rfl⟩
  · exact ⟨rfl, rfl⟩

/-! ## A received message and a delivery -/

/-- Ids made from provider ids, and clocks that stand still. -/
def sampleEnvironment : EventEnvironment where
  ids q :=
    let id := Encodable.encode (q.toList.map Char.toNat) + 10
    { contactId := id, conversationId := id, messageId := id }
  inboundClock _ := 0
  templateId i := i
  reportClock _ := 0
  endClock := 0
  error := "Provided Date object is invalid."

/-- A webhook with a received message and the delivery of a sent one. -/
def mixedPayload (timestamp : String) : Json :=
  let message : Json := .obj [("id", .str "wamid.in"), ("from", .str "5511999999999"),
    ("timestamp", .str timestamp)]
  let received : Json := .obj [("metadata", .obj [("phone_number_id", .str "p")]),
    ("messages", .arr [message])]
  let status : Json := .obj [("id", .str "wamid.1"), ("status", .str "delivered"),
    ("timestamp", .str "10")]
  let reported : Json := .obj [("statuses", .arr [status])]
  .obj [("entry", .arr [.obj [("changes",
    .arr [.obj [("value", received)], .obj [("value", reported)]])]])]

/-- A tenant with a message that was sent and a webhook that has arrived. -/
def sampleArrival (payload : Json) : Db :=
  { sampleDb with
    messages := ⟨[submittedMessage], List.pairwise_singleton _ _⟩
    webhookEvents := ⟨[WebhookEvent.received 50 payload 0], List.pairwise_singleton _ _⟩ }

/-- The sample times are in range. -/
theorem inRange_sampleEnvironment : sampleEnvironment.InRange := by
  have hwindow : 0 + serviceWindowMs ≤ maxDate := by decide
  exact ⟨fun _ => hwindow, fun _ => Nat.zero_le maxDate⟩

/-- The sample event is new. -/
theorem fresh_sampleEnvironment (payload : Json) :
    sampleEnvironment.Fresh (sampleArrival payload) := by
  have hinjective : ∀ q q' : String, q ≠ q' →
      Encodable.encode (q.toList.map Char.toNat) + 10 ≠
        Encodable.encode (q'.toList.map Char.toNat) + 10 := by
    intro q q' hne heq
    have hchars := Encodable.encode_injective (Nat.add_right_cancel heq)
    exact hne (String.toList_inj.mp (List.map_injective_iff.mpr (fun _ _ => Char.toNat_inj.mp) hchars))
  refine ⟨fun q q' hne => ⟨hinjective q q' hne, hinjective q q' hne, hinjective q q' hne⟩,
    fun q _ => ⟨?_, ?_, rfl⟩, fun i j h => h, fun i => rfl⟩
  · refine (Table.find_eq_none_iff _).mpr fun m hm hkey => ?_
    rw [List.mem_singleton.mp hm, mem_keys_id] at hkey
    simp [submittedMessage, sampleEnvironment] at hkey
  · refine (Table.find_eq_none_iff _).mpr fun c hc hkey => ?_
    rw [List.mem_singleton.mp hc] at hkey
    simp [Keyed.keys, sampleContact, sampleEnvironment] at hkey

/-- **When timestamps poison an event.** A timestamp is ignored or has a date and a service window
that can be represented exactly when it fits. And an event whose messages belong to configured senders
is processed, with all its statuses applied, exactly when its payload is harmless. -/
theorem timestamps_poison (env : EventEnvironment) (db : Db) (event : WebhookEvent)
    (text : String) (hclock : env.InRange) (hfresh : env.Fresh db)
    (hevent : db.webhookEvents.find event.id = some event) (hpending : event.processed = false)
    (hsenders : ∀ change ∈ inboundChanges event.payload, (db.senderOf change).isSome = true) :
    ((parseTimestamp (some text) = .undefined ∨
        ∃ at_, parseTimestamp (some text) = .valid at_ ∧ at_ ≤ maxDate ∧
          at_ + serviceWindowMs ≤ maxDate) ↔ TimestampFits serviceWindowMs (some text)) ∧
      (env.Settled db event ↔ Harmless db event.payload) := by
  constructor
  · rw [timestampFits_iff]
    refine or_congr_right (exists_congr fun at_ => and_congr_right fun hparse => ?_)
    exact ⟨fun h => h.2, fun h => ⟨le_maxDate_of_parseTimestamp hparse, h⟩⟩
  · obtain ⟨hiff, happlied⟩ := services_iff hclock hfresh hsenders
    obtain ⟨row, hrow, hmark⟩ := find_processEvent env hevent hpending
    obtain ⟨hmessages, hstatusEvents⟩ := messages_processEvent env db event
    rw [← hiff, ← hmark]
    constructor
    · rintro ⟨⟨row', hrow', hprocessed⟩, -⟩
      rw [hrow] at hrow'
      cases hrow'
      exact hprocessed
    · intro hprocessed
      refine ⟨⟨row, hrow, hprocessed⟩, ?_⟩
      rw [Applied, hmessages, hstatusEvents]
      exact happlied (hmark.mp hprocessed)

/-- With a timestamp that fits, the same event is processed and the delivery applied. -/
theorem timestamps_poison_mixed :
    sampleEnvironment.Settled (sampleArrival (mixedPayload "20"))
        (WebhookEvent.received 50 (mixedPayload "20") 0) ∧
      TimestampFits serviceWindowMs (some "20") := by
  obtain ⟨htimestamp, hsettled⟩ := timestamps_poison sampleEnvironment
    (sampleArrival (mixedPayload "20")) (WebhookEvent.received 50 (mixedPayload "20") 0) "20"
    inRange_sampleEnvironment (fresh_sampleEnvironment _) rfl rfl (by decide)
  have hfits : TimestampFits serviceWindowMs (some "20") :=
    htimestamp.mp (.inr ⟨20000, by decide +kernel⟩)
  refine ⟨hsettled.mpr ?_, hfits⟩
  have hreport : TimestampFits 0 (some "10") :=
    (timestampFits_iff 0 (some "10")).mpr (.inr ⟨10000, by decide +kernel⟩)
  have hmessage : ∀ message ∈ inboundMessages (mixedPayload "20"),
      message.from_ = "5511999999999" ∧ message.timestamp = some "20" := by decide
  have hupdates : extractUpdates (mixedPayload "20") = [] :=
    List.eq_nil_of_length_eq_zero (by decide)
  refine ⟨fun message hmem => ⟨"5511999999999", ?_⟩, fun q _ message hfind => ?_, ?_,
    fun report hmem _ _ => ?_⟩
  · rw [(hmessage message hmem).1]
    rfl
  · rw [(hmessage message (List.mem_of_find?_eq_some hfind)).2]
    exact hfits
  · rw [show (WebhookEvent.received 50 (mixedPayload "20") 0).payload = mixedPayload "20" from rfl,
      hupdates]
    trivial
  · have htimestamp : ∀ report ∈ extractStatuses (mixedPayload "20"),
        report.timestamp = some "10" := by decide
    rw [htimestamp report hmem]
    exact hreport

/-- **A poisoned event.** `Number("1e300")` is finite, but no `Date` holds it: the message is not
stored, the event is not processed, and the delivery that comes after it is not applied. -/
theorem poisoned_event :
    parseTimestamp (some "1e300") = .invalid ∧
    sampleEnvironment.InRange ∧ sampleEnvironment.Fresh (sampleArrival (mixedPayload "1e300")) ∧
    (sampleArrival (mixedPayload "1e300")).webhookEvents.find 50 =
      some (WebhookEvent.received 50 (mixedPayload "1e300") 0) ∧
    (∀ change ∈ inboundChanges (mixedPayload "1e300"),
      ((sampleArrival (mixedPayload "1e300")).senderOf change).isSome = true) ∧
    ¬sampleEnvironment.Settled (sampleArrival (mixedPayload "1e300"))
      (WebhookEvent.received 50 (mixedPayload "1e300") 0) ∧
    (sampleEnvironment.processEvent (sampleArrival (mixedPayload "1e300"))
      (WebhookEvent.received 50 (mixedPayload "1e300") 0)).messages.rows.map Message.status =
        [.submitted] := by
  refine ⟨by decide +kernel, inRange_sampleEnvironment, fresh_sampleEnvironment _, rfl,
    by decide +kernel, ?_, by decide +kernel⟩
  have hevents : (sampleEnvironment.processEvent (sampleArrival (mixedPayload "1e300"))
      (WebhookEvent.received 50 (mixedPayload "1e300") 0)).webhookEvents.rows.map
        WebhookEvent.processed = [false] := by decide +kernel
  rintro ⟨⟨row, hfind, hprocessed⟩, -⟩
  have hrow := List.mem_map_of_mem (f := WebhookEvent.processed)
    ((Table.find_eq_some_iff _).mp hfind).1
  rw [hevents, hprocessed] at hrow
  cases List.mem_singleton.mp hrow

end EventEnvironment

end ApiWhatsApp
