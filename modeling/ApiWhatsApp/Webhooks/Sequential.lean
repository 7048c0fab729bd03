import ApiWhatsApp.Webhooks.EventProcessing

/-!
# A poll by itself

`EventEnvironment` runs the loops of one event from beginning to end. `Processor` takes them call by
call, so that other polls can come in between. Here a poll has the database to itself, and no call
fails that can succeed.

* **`reachable_inbound`** and **`reachable_statuses`** — the poll comes to the end of its loops, or to
  their exception, with the same database.
* `reachable_processEvent` — so it does with an event that brings no template updates; `Processor`
  leaves these out.
-/

namespace ApiWhatsApp

open Library

namespace EventEnvironment

variable (env : EventEnvironment) (batch : List WebhookEvent) (event : WebhookEvent)

/-- The steps of a poll that nothing interrupts. -/
def alone (x : Db × Processor) (act : Time × ProcessorAct) : Option (Db × Processor) :=
  x.2.step x.1 act.1 act.2

/-- A poll that the environment `env` ends with an exception. -/
def failed (error : String) : Processor :=
  { batch := batch, stage := .recordError event env.endClock error }

variable {env batch event} {s : Db}

/-- One message. -/
theorem reachable_storeMessage (work : InboundWork) (s : Db) (message : MetaInboundMessage)
    (rest : List MetaInboundMessage) :
    Reachable alone (s, ⟨batch, .messages event { work with messages := message :: rest }⟩)
      ((env.storeMessage s (work.sender, work.change, message)).1,
        (env.storeMessage s (work.sender, work.change, message)).2.elim
          ⟨batch, .messages event { work with messages := rest }⟩ (env.failed batch event)) := by
  unfold storeMessage
  dsimp only
  rcases hphone : normalizePhoneNumber message.from_ with error | from_
  · have hrun : alone (s, ⟨batch, .messages event { work with messages := message :: rest }⟩)
        (env.endClock, .run) = some (s, env.failed batch event error.message) := by
      simp only [alone, Processor.step, Processor.run, hphone, Option.map_some, failed]
    exact Reachable.tail Reaches.refl hrun
  let before : InboundWork := { work with messages := rest }
  have hread : alone (s, ⟨batch, .messages event { work with messages := message :: rest }⟩)
      (env.inboundClock message.id, .run) =
      some (s, ⟨batch, .duplicate event before (env.incoming message from_)⟩) := by
    simp only [alone, Processor.step, Processor.run, hphone, Option.map_some, incoming, before]
  have hstart := Reachable.tail Reaches.refl hread
  rcases hfind : s.messages.find (.providerMessageId message.id) with _ | existing
  · have hchecked : alone (s, ⟨batch, .duplicate event before (env.incoming message from_)⟩)
        (0, .call .returned (env.ids message.id) false) =
        some (s, ⟨batch, .commit event before (env.incoming message from_)⟩) := by
      simp only [alone, Processor.step, Processor.pending, incoming, hfind, Option.bind_some,
        Option.map_some]
    dsimp only
    have hsame : Processor.persist s
        { sender := work.sender, change := work.change, messages := [], changes := [] }
        (env.incoming message from_) (env.ids message.id) =
        Processor.persist s before (env.incoming message from_) (env.ids message.id) := rfl
    rw [hsame]
    rcases hpersist : Processor.persist s before (env.incoming message from_) (env.ids message.id)
      with _ | db'
    · have hthrows : alone (s, ⟨batch, .commit event before (env.incoming message from_)⟩)
          (env.endClock, .call (.failed env.error) (env.ids message.id) false) =
          some (s, env.failed batch event env.error) := by
        simp only [alone, Processor.step, Processor.pending, Option.bind_some,
          Processor.afterThrow, failed, Bool.false_eq_true, if_false]
      exact (hstart.tail hchecked).tail hthrows
    · have hcommits : alone (s, ⟨batch, .commit event before (env.incoming message from_)⟩)
          (0, .call .returned (env.ids message.id) false) =
          some (db', ⟨batch, .messages event before⟩) := by
        simp only [alone, Processor.step, Processor.pending, Option.bind_some, hpersist,
          Option.map_some]
      exact (hstart.tail hchecked).tail hcommits
  · have hfound : alone (s, ⟨batch, .duplicate event before (env.incoming message from_)⟩)
        (0, .call .returned (env.ids message.id) false) =
        some (s, ⟨batch, .messages event before⟩) := by
      simp only [alone, Processor.step, Processor.pending, incoming, hfind, Option.bind_some,
        Option.map_some]
    exact hstart.tail hfound

/-- One change. -/
theorem reachable_storeChange (s : Db) (change : InboundChange) (rest : List InboundChange) :
    Reachable alone (s, ⟨batch, .changes event (change :: rest)⟩)
      ((env.storeChange s change).1, (env.storeChange s change).2.elim
        ⟨batch, .changes event rest⟩ (env.failed batch event)) := by
  unfold storeChange
  rcases hid : change.providerPhoneNumberId with _ | id
  · have hrun : alone (s, ⟨batch, .changes event (change :: rest)⟩) (env.endClock, .run) =
        some (s, env.failed batch event Processor.missingPhoneNumberId) := by
      simp only [alone, Processor.step, Processor.run, hid, Option.map_some, failed]
    exact Reachable.tail Reaches.refl hrun
  have hread : alone (s, ⟨batch, .changes event (change :: rest)⟩) (env.endClock, .run) =
      some (s, ⟨batch, .sender event id change rest⟩) := by
    simp only [alone, Processor.step, Processor.run, hid, Option.map_some]
  have hstart := Reachable.tail Reaches.refl hread
  dsimp only
  rcases hfind : s.phoneNumbers.find (.providerPhoneNumberId id) with _ | sender
  · have hmissing : alone (s, ⟨batch, .sender event id change rest⟩)
        (env.endClock, .call .returned (env.ids id) false) =
        some (s, env.failed batch event (Processor.unconfigured id)) := by
      simp only [alone, Processor.step, Processor.pending, hfind, Option.bind_some, Option.map_some,
        failed]
    exact hstart.tail hmissing
  let work (messages : List MetaInboundMessage) : InboundWork :=
    { sender := sender, change := change, messages := messages, changes := rest }
  have hfound : alone (s, ⟨batch, .sender event id change rest⟩)
      (env.endClock, .call .returned (env.ids id) false) =
      some (s, ⟨batch, .messages event (work change.messages)⟩) := by
    simp only [alone, Processor.step, Processor.pending, hfind, Option.bind_some, Option.map_some,
      work]
  have hloop : Reachable alone (s, ⟨batch, .messages event (work change.messages)⟩)
      ((forEach (fun s message => env.storeMessage s (sender, change, message)) s change.messages).1,
        (forEach (fun s message => env.storeMessage s (sender, change, message)) s
          change.messages).2.elim ⟨batch, .messages event (work [])⟩ (env.failed batch event)) :=
    reachable_forEach (fun messages => ⟨batch, .messages event (work messages)⟩)
      (env.failed batch event) fun s message left =>
        reachable_storeMessage (work []) s message left
  dsimp only
  rw [forEach_map]
  have hall := Relation.ReflTransGen.trans (hstart.tail hfound) hloop
  rcases hend : forEach (fun s message => env.storeMessage s (sender, change, message)) s
    change.messages with ⟨s', _ | error⟩
  · rw [hend] at hall
    have hnext : alone (s', ⟨batch, .messages event (work [])⟩) (env.endClock, .run) =
        some (s', ⟨batch, .changes event rest⟩) := rfl
    exact Reachable.tail hall hnext
  · rw [hend] at hall
    exact hall

/-- **The received messages.** -/
theorem reachable_inbound (db : Db) :
    Reachable alone (db, ⟨batch, .changes event (inboundChanges event.payload)⟩)
      ((env.processInbound db event.payload).1, (env.processInbound db event.payload).2.elim
        ⟨batch, .templates event⟩ (env.failed batch event)) := by
  have hloop : Reachable alone (db, ⟨batch, .changes event (inboundChanges event.payload)⟩)
      ((env.processInbound db event.payload).1, (env.processInbound db event.payload).2.elim
        ⟨batch, .changes event []⟩ (env.failed batch event)) :=
    reachable_forEach (fun changes => ⟨batch, .changes event changes⟩) (env.failed batch event)
      fun s change rest => reachable_storeChange s change rest
  rcases hend : env.processInbound db event.payload with ⟨db', _ | error⟩
  · rw [hend] at hloop
    have hnext : alone (db', ⟨batch, .changes event []⟩) (env.endClock, .run) =
        some (db', ⟨batch, .templates event⟩) := rfl
    exact Reachable.tail hloop hnext
  · rw [hend] at hloop
    exact hloop

/-- One status. -/
theorem reachable_applyEntry (s : Db) (entry : Time × MetaMessageStatus)
    (rest : List (Time × MetaMessageStatus)) :
    Reachable alone (s, ⟨batch, .statuses event ((entry :: rest).map Prod.snd)⟩)
      ((env.applyEntry s entry).1, (env.applyEntry s entry).2.elim
        ⟨batch, .statuses event (rest.map Prod.snd)⟩ (env.failed batch event)) := by
  obtain ⟨now, report⟩ := entry
  unfold applyEntry
  dsimp only
  rcases happly : s.applyStatus now report with _ | s'
  · have hthrows : alone (s, ⟨batch, .statuses event (report :: rest.map Prod.snd)⟩)
        (env.endClock, .call (.failed env.error) (env.ids "") false) =
        some (s, env.failed batch event env.error) := rfl
    exact Reachable.tail Reaches.refl hthrows
  · have hreturns : alone (s, ⟨batch, .statuses event (report :: rest.map Prod.snd)⟩)
        (now, .call .returned (env.ids "") false) =
        some (s', ⟨batch, .statuses event (rest.map Prod.snd)⟩) := by
      simp only [alone, Processor.step, Processor.pending, Option.bind_some, happly,
        Option.map_some]
    exact Reachable.tail Reaches.refl hreturns

theorem map_entries (env : EventEnvironment) (payload : Json) :
    (env.entries payload).map Prod.snd = extractStatuses payload := by
  refine List.ext_getElem (by simp [entries]) fun i hi hi' => ?_
  simp [entries]

/-- **The statuses.** -/
theorem reachable_statuses (env : EventEnvironment) (db : Db) :
    Reachable alone (db, ⟨batch, .statuses event (extractStatuses event.payload)⟩)
      ((env.processStatuses db event.payload).1, (env.processStatuses db event.payload).2.elim
        ⟨batch, .markProcessed event env.endClock⟩ (env.failed batch event)) := by
  have hloop : Reachable alone (db, ⟨batch, .statuses event (extractStatuses event.payload)⟩)
      ((env.processStatuses db event.payload).1, (env.processStatuses db event.payload).2.elim
        ⟨batch, .statuses event []⟩ (env.failed batch event)) := by
    rw [← map_entries env]
    exact reachable_forEach (fun rest => ⟨batch, .statuses event (rest.map Prod.snd)⟩)
      (env.failed batch event) fun s entry rest => reachable_applyEntry s entry rest
  rcases hend : env.processStatuses db event.payload with ⟨db', _ | error⟩
  · rw [hend] at hloop
    have hnext : alone (db', ⟨batch, .statuses event []⟩) (env.endClock, .run) =
        some (db', ⟨batch, .markProcessed event env.endClock⟩) := rfl
    exact Reachable.tail hloop hnext
  · rw [hend] at hloop
    exact hloop

/-- An event without template updates, from its first message to the mark or the record. -/
theorem reachable_processEvent (db : Db) (hupdates : extractUpdates event.payload = []) :
    Reachable alone (db, ⟨batch, .changes event (inboundChanges event.payload)⟩)
      (env.processEvent db event, ⟨batch, .next⟩) := by
  have htemplates : ∀ s, env.processTemplates s event.payload = (s, none) := by
    intro s
    rw [processTemplates, hupdates]
    rfl
  have hinbound : Reachable alone (db, ⟨batch, .changes event (inboundChanges event.payload)⟩)
      ((env.processInbound db event.payload).1, (env.processInbound db event.payload).2.elim
        ⟨batch, .templates event⟩ (env.failed batch event)) := reachable_inbound db
  -- The record of an exception.
  have hfailed : ∀ s error, alone (s, env.failed batch event error)
      (env.endClock, .call .returned (env.ids "") false) =
      some (s.updateWebhookEvent event.id
        (WebhookEvent.recordError (env.endClock + event.retryDelayMs) error) fun _ => rfl,
          ⟨batch, .next⟩) := fun s error => rfl
  unfold processEvent services
  rcases hdb₁ : env.processInbound db event.payload with ⟨db₁, _ | error⟩
  swap
  · rw [hdb₁] at hinbound
    exact Reachable.tail hinbound (hfailed db₁ error)
  rw [hdb₁] at hinbound
  dsimp only
  rw [htemplates]
  have hread : alone (db₁, ⟨batch, .templates event⟩) (0, .call .returned (env.ids "") false) =
      some (db₁, ⟨batch, .statuses event (extractStatuses event.payload)⟩) := rfl
  have hstatuses := Relation.ReflTransGen.trans (Reachable.tail hinbound hread)
    (reachable_statuses env db₁)
  dsimp only
  rcases hend : env.processStatuses db₁ event.payload with ⟨db', _ | error⟩
  · rw [hend] at hstatuses
    have hmark : alone (db', ⟨batch, .markProcessed event env.endClock⟩)
        (0, .call .returned (env.ids "") false) =
        some (db'.updateWebhookEvent event.id (WebhookEvent.markProcessed env.endClock)
          fun _ => rfl, ⟨batch, .next⟩) := rfl
    exact Reachable.tail hstatuses hmark
  · rw [hend] at hstatuses
    exact Reachable.tail hstatuses (hfailed db' error)

end EventEnvironment

end ApiWhatsApp
