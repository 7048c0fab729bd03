import ApiWhatsApp.Library.Machine
import ApiWhatsApp.Library.Rows
import ApiWhatsApp.Webhooks.Inbound

/-!
# Activity timestamps

The transactions of `persistInboundMessage` and of `MessagesService.create` for one contact and one
sender, statement by statement, under READ COMMITTED. They meet in two rows: the contact, and the
conversation of the contact with the sender.

* `Contact.upsertRow`, `Contact.openWindow`, `Conversation.recordInboundRow` and
  `Conversation.recordOutboundRow` are the four statements that write one of them.
  `Db.persistInbound_contact`, `Db.recordInbound_conversation` and `Db.recordOutbound_conversation`
  say that a transaction that runs alone does to these rows what the statements do.
* `ActivityRun` is the machine: any number of transactions, each of which may be rolled back at any
  point. A free-form message is accepted only while the service window is open, so its contact is
  there. `done` lists the activities that were committed.
* **`activity_times`** — the times of both rows are the maxima over the activities, in whatever
  order they were committed, and no time ever goes back.
-/

namespace ApiWhatsApp

open Library

/-! ## The statements -/

namespace Contact

/-- The version that the upsert of a contact writes: the new row, or the existing one under a new
name; nothing is written when no profile name is given. -/
def upsertRow (newId tenantId : Uuid) (phone : String) (profileName : Option String)
    (inboundAt : Time) : Option Contact → Option Contact
  | some c => profileName.map fun name => { c with name := some name }
  | none => some (newContact newId tenantId phone profileName inboundAt)

/-- The version that the update of the service window writes, if the row matches. -/
def openWindow (inboundAt : Time) (c : Contact) : Option Contact :=
  if isAfter inboundAt c.lastInboundAt then
    some { c with
      lastInboundAt := some inboundAt
      serviceWindowExpiresAt := some (inboundAt + serviceWindowMs) }
  else none

end Contact

namespace Conversation

/-- The version that `recordInbound` writes. -/
def recordInboundRow (newId tenantId senderId contactId : Uuid) (slaMinutes : Option ℕ)
    (occurredAt : Time) : Option Conversation → Conversation
  | some c => c.touchInbound slaMinutes occurredAt
  | none =>
      { opened newId tenantId senderId contactId occurredAt with
        unreadCount := 1
        lastInboundAt := some occurredAt }

/-- The version that `recordOutbound` writes. -/
def recordOutboundRow (newId tenantId senderId contactId : Uuid) (occurredAt : Time) :
    Option Conversation → Conversation
  | some c => c.touchOutbound occurredAt
  | none =>
      { opened newId tenantId senderId contactId occurredAt with
        lastOutboundAt := some occurredAt }

end Conversation

/-- A transaction that runs alone does to the contact what its two statements do. -/
theorem Db.persistInbound_contact {db db' : Db} {sender : WhatsAppPhoneNumber}
    {displayPhoneNumber profileName : Option String} {message : MetaInboundMessage}
    {from_ : String} {inboundAt : Time} {ids : InboundIds} {m : Message}
    (h : db.persistInbound sender displayPhoneNumber profileName message from_ inboundAt ids =
      some (db', m)) :
    db'.contacts.find (.tenantPhone sender.tenantId from_) =
      ((Contact.upsertRow ids.contactId sender.tenantId from_ profileName inboundAt
          (db.contacts.find (.tenantPhone sender.tenantId from_))).or
        (db.contacts.find (.tenantPhone sender.tenantId from_))).map fun c =>
          (c.openWindow inboundAt).getD c := by
  obtain ⟨⟨db₁, contactId⟩, hcontact, h⟩ := Option.bind_eq_some_iff.mp h
  obtain ⟨⟨db₂, c⟩, hrecord, h⟩ := Option.bind_eq_some_iff.mp h
  obtain ⟨messages, -, h⟩ := Option.bind_eq_some_iff.mp h
  cases h
  obtain ⟨conversations, rfl⟩ := Db.recordInbound_frame hrecord
  obtain ⟨⟨contacts, id⟩, hupsert, h⟩ := Option.map_eq_some_iff.mp hcontact
  cases h
  unfold Db.upsertContact at hupsert
  rcases hfind : db.contacts.find (.tenantPhone sender.tenantId from_) with _ | r
  · rw [hfind] at hupsert
    obtain ⟨contacts, hinsert, h⟩ := Option.map_eq_some_iff.mp hupsert
    cases h
    have hmem : ContactKey.tenantPhone sender.tenantId from_ ∈
        Keyed.keys (newContact ids.contactId sender.tenantId from_ profileName inboundAt) := by
      simp [Keyed.keys, newContact]
    simp only [Table.find_updateWhere, Table.find_of_insert? hinsert, if_pos hmem]
    simp [Contact.upsertRow, Contact.openWindow, newContact, isAfter]
  · rw [hfind] at hupsert
    cases hupsert
    simp only [Table.find_updateWhere, hfind]
    cases profileName <;> cases hafter : isAfter inboundAt r.lastInboundAt <;>
      simp [Contact.upsertRow, Contact.openWindow, hafter]

/-- And to the conversation what `recordInbound` does. -/
theorem Db.recordInbound_conversation {db db' : Db} {newId id : Uuid} {activity : InboundActivity}
    (h : db.recordInbound newId activity = some (db', id)) :
    ∃ slaMinutes,
      db'.conversations.find
          (.participants activity.tenantId activity.senderId activity.contactId) =
        some (Conversation.recordInboundRow newId activity.tenantId activity.senderId
          activity.contactId slaMinutes activity.occurredAt (db.conversations.find
            (.participants activity.tenantId activity.senderId activity.contactId))) := by
  unfold Db.recordInbound at h
  split at h
  · rename_i c hc
    cases h
    refine ⟨db.responseSlaMinutes c, ?_⟩
    have hfind := db.find_updateConversation c.id
      (Conversation.touchInbound (db.responseSlaMinutes c) activity.occurredAt)
      (Conversation.keys_touchInbound _ _)
      (.participants activity.tenantId activity.senderId activity.contactId)
    refine hfind.trans ?_
    rw [hc]
    simp [Conversation.recordInboundRow]
  · rename_i hc
    obtain ⟨conversations, hinsert, h⟩ := Option.map_eq_some_iff.mp h
    cases h
    refine ⟨none, ?_⟩
    rw [Table.find_of_insert? hinsert, if_pos (by simp [Keyed.keys, Conversation.opened]), hc]
    rfl

/-- The same for an outbound message of a known contact. -/
theorem Db.recordOutbound_conversation {db db' : Db} {newId : Uuid} {id : Option Uuid}
    {activity : OutboundActivity} {contact : Contact}
    (h : db.recordOutbound newId activity = some (db', id))
    (hfree : activity.messageType ≠ .template)
    (hcontact : db.contacts.find (.tenantPhone activity.tenantId activity.phone) = some contact) :
    db'.conversations.find (.participants activity.tenantId activity.senderId contact.id) =
      some (Conversation.recordOutboundRow newId activity.tenantId activity.senderId contact.id
        activity.occurredAt (db.conversations.find
          (.participants activity.tenantId activity.senderId contact.id))) := by
  unfold Db.recordOutbound at h
  rw [if_neg hfree, hcontact] at h
  simp only at h
  split at h
  · rename_i c hc
    cases h
    have hfind := db.find_updateConversation c.id
      (Conversation.touchOutbound activity.occurredAt) (Conversation.keys_touchOutbound _)
      (.participants activity.tenantId activity.senderId contact.id)
    refine hfind.trans ?_
    rw [hc]
    simp [Conversation.recordOutboundRow]
  · rename_i hc
    obtain ⟨conversations, hinsert, h⟩ := Option.map_eq_some_iff.mp h
    cases h
    rw [Table.find_of_insert? hinsert, if_pos (by simp [Keyed.keys, Conversation.opened]), hc]
    rfl

/-! ## The machine -/

/-- The two directions of an activity. -/
inductive ActivityKind where
  | inbound
  | outbound
  deriving DecidableEq, Repr

/-- A received message, or an accepted free-form one. -/
structure Activity where
  kind : ActivityKind
  occurredAt : Time
  deriving DecidableEq, Repr

/-- Where a transaction stands. -/
inductive ActivityStage where
  | begun
  /-- The contact is there. -/
  | upserted
  /-- The service window is up to date. -/
  | windowed
  /-- The conversation is up to date. -/
  | recorded
  /-- `recordOutbound` has found no contact. -/
  | unrecorded
  | over
  deriving DecidableEq, Repr

/-- A transaction. -/
structure ActivityCall where
  activity : Activity
  profileName : Option String
  stage : ActivityStage

/-- Whose rows these are. -/
structure Participants where
  tenantId : Uuid
  senderId : Uuid
  phone : String

/-- The two rows, the transactions, and the activities committed so far, the last one first. -/
structure ActivityRun where
  contact : RowCell Contact
  conversation : RowCell Conversation
  calls : List ActivityCall
  done : List Activity

namespace ActivityRun

/-- A contact that may have been created, and no activity. -/
def initial (contact : Option Contact) : ActivityRun where
  contact := .settled contact
  conversation := .settled none
  calls := []
  done := []

/-- Write a version, if there is one to write. -/
def writeIfSome (cell : RowCell Contact) (i : ℕ) : Option Contact → Option (RowCell Contact)
  | some r => cell.write i r
  | none => some cell

/-- The next statement of transaction `i`; `newId` is the id of a row that it inserts, and
`slaMinutes` what the subquery of `recordInbound` finds. -/
def statement (who : Participants) (s : ActivityRun) (i : ℕ) (call : ActivityCall) (newId : Uuid)
    (slaMinutes : Option ℕ) : Option (RowCell Contact × RowCell Conversation × ActivityStage) :=
  match call.activity.kind, call.stage with
  | .inbound, .begun =>
      (writeIfSome s.contact i (Contact.upsertRow newId who.tenantId who.phone call.profileName
        call.activity.occurredAt (s.contact.seenBy i))).map fun contact =>
          (contact, s.conversation, .upserted)
  | .inbound, .upserted =>
      (s.contact.seenBy i).bind fun c =>
        (writeIfSome s.contact i (c.openWindow call.activity.occurredAt)).map fun contact =>
          (contact, s.conversation, .windowed)
  | .inbound, .windowed =>
      (s.contact.seenBy i).bind fun c =>
        (s.conversation.write i (Conversation.recordInboundRow newId who.tenantId who.senderId c.id
          slaMinutes call.activity.occurredAt (s.conversation.seenBy i))).map fun conversation =>
            (s.contact, conversation, .recorded)
  | .outbound, .begun =>
      match s.contact.seenBy i with
      | none => some (s.contact, s.conversation, .unrecorded)
      | some c =>
          (s.conversation.write i (Conversation.recordOutboundRow newId who.tenantId who.senderId
            c.id call.activity.occurredAt (s.conversation.seenBy i))).map fun conversation =>
              (s.contact, conversation, .recorded)
  | _, _ => none

/-- The steps of the system. -/
inductive Act where
  /-- A webhook delivers a message. -/
  | receive (occurredAt : Time) (profileName : Option String)
  /-- A free-form message passes `assertAllowed` at `now` and is accepted. -/
  | accept (now occurredAt : Time)
  | statement (i : ℕ) (newId : Uuid) (slaMinutes : Option ℕ)
  | commit (i : ℕ)
  | rollback (i : ℕ)

/-- One step. -/
def step (who : Participants) (s : ActivityRun) : Act → Option ActivityRun
  | .receive occurredAt profileName =>
      some { s with calls := s.calls ++ [
        { activity := { kind := .inbound, occurredAt := occurredAt }
          profileName := profileName, stage := .begun }] }
  | .accept now occurredAt =>
      if (s.contact.committed.bind Contact.serviceWindowExpiresAt).any (now < ·) then
        some { s with calls := s.calls ++ [
          { activity := { kind := .outbound, occurredAt := occurredAt }
            profileName := none, stage := .begun }] }
      else none
  | .statement i newId slaMinutes =>
      s.calls[i]?.bind fun call =>
        (s.statement who i call newId slaMinutes).map fun (contact, conversation, stage) =>
          { s with
            contact := contact
            conversation := conversation
            calls := s.calls.set i { call with stage := stage } }
  | .commit i =>
      s.calls[i]?.bind fun call =>
        if call.stage = .recorded ∨ call.stage = .unrecorded then
          some { contact := s.contact.commit i
                 conversation := s.conversation.commit i
                 calls := s.calls.set i { call with stage := .over }
                 done := call.activity :: s.done }
        else none
  | .rollback i =>
      s.calls[i]?.map fun call =>
        { s with
          contact := s.contact.rollback i
          conversation := s.conversation.rollback i
          calls := s.calls.set i { call with stage := .over } }

end ActivityRun

/-! ## Times as maxima -/

/-- `GREATEST(COALESCE(x, t), t)`. -/
def latest (x : Option Time) (t : Time) : Option Time := some (max (x.getD t) t)

/-- The three times of a conversation. -/
structure ConversationTimes where
  inbound : Option Time
  outbound : Option Time
  message : Option Time

/-- The times of a conversation that may not exist yet. -/
def Conversation.times : Option Conversation → ConversationTimes
  | none => { inbound := none, outbound := none, message := none }
  | some c =>
      { inbound := c.lastInboundAt, outbound := c.lastOutboundAt, message := some c.lastMessageAt }

/-- What an activity does to the times of a conversation. -/
def Activity.touch (a : Activity) (x : ConversationTimes) : ConversationTimes :=
  match a.kind with
  | .inbound =>
      { x with
        inbound := latest x.inbound a.occurredAt
        message := latest x.message a.occurredAt }
  | .outbound =>
      { x with
        outbound := latest x.outbound a.occurredAt
        message := latest x.message a.occurredAt }

/-- The times of the activities of one kind. -/
def timesOf (kind : ActivityKind) (activities : List Activity) : List Time :=
  (activities.filter fun a => a.kind = kind).map Activity.occurredAt

/-- The latest times of some activities. -/
def latestTimes (activities : List Activity) : ConversationTimes where
  inbound := (timesOf .inbound activities).max?
  outbound := (timesOf .outbound activities).max?
  message := (activities.map Activity.occurredAt).max?

section times

variable {t u : Time} {x : Option Time}

/-- A maximum is the latest of its items. -/
theorem max?_cons_eq_latest (t : Time) (l : List Time) : (t :: l).max? = latest l.max? t := by
  rw [List.max?_cons, latest]
  rcases l.max? with _ | m
  · simp
  · simp [max_comm]

/-- Later is what is not before. -/
theorem latest_eq_self_iff : latest x t = x ↔ ∃ m, x = some m ∧ t ≤ m := by
  rcases x with _ | m
  · simp [latest]
  · simp [latest]

/-- The same time twice is no news. -/
@[simp] theorem latest_latest (x : Option Time) (t : Time) :
    latest (latest x t) t = latest x t := by
  simp [latest]

/-- What is up to date for one time stays so when another time comes. -/
theorem latest_eq_self_of_latest (h : latest x t = x) : latest (latest x u) t = latest x u := by
  obtain ⟨m, rfl, hm⟩ := latest_eq_self_iff.mp h
  exact latest_eq_self_iff.mpr ⟨_, rfl, hm.trans (le_max_left _ _)⟩

/-- A maximum does not depend on the order. -/
theorem max?_eq_of_perm {l l' : List Time} (h : l.Perm l') : l.max? = l'.max? := by
  ext m
  rw [List.max?_eq_some_iff, List.max?_eq_some_iff, h.mem_iff]
  simp only [h.mem_iff]

/-- The order does not matter. -/
theorem latestTimes_eq_of_perm {l l' : List Activity} (h : l.Perm l') :
    latestTimes l = latestTimes l' := by
  have hkind : ∀ kind, (timesOf kind l).max? = (timesOf kind l').max? := fun kind =>
    max?_eq_of_perm ((h.filter _).map _)
  rw [latestTimes, latestTimes, hkind, hkind, max?_eq_of_perm (h.map _)]

/-- A time that may be unset has not gone back. -/
def NotBack (x y : Option Time) : Prop := ∀ m, x = some m → ∃ m', y = some m' ∧ m ≤ m'

/-- The latest does not go back. -/
theorem notBack_latest (x : Option Time) (t : Time) : NotBack x (latest x t) := by
  rintro m rfl
  exact ⟨_, rfl, le_max_left _ _⟩

/-- A time does not go back from itself. -/
theorem NotBack.refl (x : Option Time) : NotBack x x := fun m hm => ⟨m, hm, le_rfl⟩

/-- Not going back is transitive. -/
theorem NotBack.trans {y z : Option Time} (hxy : NotBack x y) (hyz : NotBack y z) :
    NotBack x z := by
  intro m hm
  obtain ⟨m', hm', hle⟩ := hxy m hm
  obtain ⟨m'', hm'', hle'⟩ := hyz m' hm'
  exact ⟨m'', hm'', hle.trans hle'⟩

/-- Shifted times do not go back either. -/
theorem NotBack.map_add {y : Option Time} (h : NotBack x y) (n : ℕ) :
    NotBack (x.map (· + n)) (y.map (· + n)) := by
  intro m hm
  obtain ⟨k, hk, rfl⟩ := Option.map_eq_some_iff.mp hm
  obtain ⟨k', hk', hle⟩ := h k hk
  exact ⟨k' + n, by rw [hk']; rfl, Nat.add_le_add_right hle n⟩

/-- One more activity is one more time. -/
theorem latestTimes_cons (a : Activity) (l : List Activity) :
    latestTimes (a :: l) = a.touch (latestTimes l) := by
  rcases a with ⟨kind, t⟩
  cases kind <;>
    simp [latestTimes, timesOf, Activity.touch, -List.max?_cons, max?_cons_eq_latest]

end times

/-! ## What the statements do to the times -/

/-- The service window ends twenty-four hours after the last inbound message. -/
def Contact.Windowed (c : Contact) : Prop :=
  c.serviceWindowExpiresAt = c.lastInboundAt.map (· + serviceWindowMs)

/-- The last inbound time of a contact that may not exist yet. -/
def Contact.time (c : Option Contact) : Option Time := c.bind Contact.lastInboundAt

/-- The upsert leaves a contact whose time is the old one or, for a new contact, its own. -/
theorem Contact.upsertRow_spec {newId tenantId : Uuid} {phone : String}
    {profileName : Option String} {t : Time} {c : Option Contact}
    (hwindow : ∀ r, c = some r → r.Windowed) :
    ∃ r, (Contact.upsertRow newId tenantId phone profileName t c).or c = some r ∧ r.Windowed ∧
      (r.lastInboundAt = Contact.time c ∨ r.lastInboundAt = latest (Contact.time c) t) := by
  rcases c with _ | c
  · exact ⟨_, rfl, rfl, .inr (by simp [newContact, Contact.time, latest])⟩
  · have hc := hwindow c rfl
    rcases profileName with _ | name
    · exact ⟨c, rfl, hc, .inl rfl⟩
    · exact ⟨{ c with name := some name }, rfl, hc, .inl rfl⟩

/-- The update of the window brings a contact up to date. -/
theorem Contact.openWindow_spec {t : Time} {c : Contact} (hwindow : c.Windowed) :
    ((c.openWindow t).getD c).Windowed ∧
      ((c.openWindow t).getD c).lastInboundAt = latest c.lastInboundAt t := by
  unfold Contact.openWindow
  split_ifs with hafter
  · refine ⟨rfl, ?_⟩
    rcases hlast : c.lastInboundAt with _ | m
    · simp [latest]
    · have hlt : m < t := by simpa [hlast, isAfter] using hafter
      simp [latest, hlt.le]
  · refine ⟨hwindow, ?_⟩
    rcases hlast : c.lastInboundAt with _ | m
    · simp [hlast, isAfter] at hafter
    · have hle : t ≤ m := by simpa [hlast, isAfter] using hafter
      simp [latest, hle, hlast]

/-- The times of a conversation after an inbound message. -/
theorem Conversation.times_recordInboundRow {newId tenantId senderId contactId : Uuid}
    {slaMinutes : Option ℕ} {t : Time} {c : Option Conversation} :
    Conversation.times
        (some (recordInboundRow newId tenantId senderId contactId slaMinutes t c)) =
      Activity.touch { kind := .inbound, occurredAt := t } (Conversation.times c) := by
  rcases c with _ | c
  · simp [recordInboundRow, times, opened, Activity.touch, latest]
  · rfl

/-- The times of a conversation after an outbound message. -/
theorem Conversation.times_recordOutboundRow {newId tenantId senderId contactId : Uuid}
    {t : Time} {c : Option Conversation} :
    Conversation.times (some (recordOutboundRow newId tenantId senderId contactId t c)) =
      Activity.touch { kind := .outbound, occurredAt := t } (Conversation.times c) := by
  rcases c with _ | c
  · simp [recordOutboundRow, times, opened, Activity.touch, latest]
  · rfl

/-! ## The invariant -/

namespace ActivityRun

/-- What a transaction has done to the contact. -/
def ContactOk (cell : RowCell Contact) (i : ℕ) (call : ActivityCall) : Prop :=
  match call.activity.kind, call.stage with
  | _, .over | .inbound, .begun => cell.version i = none
  | .inbound, .upserted => ∃ r, cell.seenBy i = some r ∧ r.Windowed ∧
      (r.lastInboundAt = Contact.time cell.committed ∨
        r.lastInboundAt = latest (Contact.time cell.committed) call.activity.occurredAt)
  | .inbound, .windowed | .inbound, .recorded => ∃ r, cell.seenBy i = some r ∧ r.Windowed ∧
      r.lastInboundAt = latest (Contact.time cell.committed) call.activity.occurredAt
  | .outbound, .begun | .outbound, .recorded => cell.version i = none ∧ cell.committed.isSome
  | _, _ => False

/-- What a transaction has done to the conversation. -/
def ConversationOk (cell : RowCell Conversation) (i : ℕ) (call : ActivityCall) : Prop :=
  if call.stage = .recorded then
    ∃ r, cell.version i = some r ∧
      Conversation.times (some r) = call.activity.touch (Conversation.times cell.committed)
  else cell.version i = none

/-- The invariant. -/
structure Ok (s : ActivityRun) : Prop where
  contact : ∀ (i : ℕ) call, s.calls[i]? = some call → ContactOk s.contact i call
  conversation : ∀ (i : ℕ) call, s.calls[i]? = some call → ConversationOk s.conversation i call
  windowed : ∀ c, s.contact.committed = some c → c.Windowed
  contactTime : Contact.time s.contact.committed = (latestTimes s.done).inbound
  conversationTimes : Conversation.times s.conversation.committed = latestTimes s.done
  contactExists : s.done ≠ [] → s.contact.committed.isSome
  /-- Only transactions hold rows. -/
  holders : ∀ i, s.calls.length ≤ i →
    s.contact.version i = none ∧ s.conversation.version i = none

variable {who : Participants} {s t : ActivityRun} {act : Act} {i j : ℕ} {call : ActivityCall}

/-- At the start nothing has been recorded. -/
theorem ok_initial {contact : Option Contact}
    (hfresh : ∀ c, contact = some c → c.lastInboundAt = none ∧ c.serviceWindowExpiresAt = none) :
    (initial contact).Ok where
  contact := by simp [initial]
  conversation := by simp [initial]
  windowed := by
    intro c hc
    obtain ⟨hinbound, hwindow⟩ := hfresh c hc
    rw [Contact.Windowed, hinbound, hwindow]
    rfl
  contactTime := by
    rcases contact with _ | c
    · rfl
    · exact (hfresh c rfl).1
  conversationTimes := rfl
  contactExists := by simp [initial]
  holders := fun _ _ => ⟨rfl, rfl⟩

/-- What is said of a transaction depends on its own version and the committed one. -/
theorem ContactOk.congr {cell cell' : RowCell Contact} (h : ContactOk cell i call)
    (hversion : cell'.version i = cell.version i) (hcommitted : cell'.committed = cell.committed) :
    ContactOk cell' i call := by
  have hseen : cell'.seenBy i = cell.seenBy i := by
    rw [RowCell.seenBy, RowCell.seenBy, hversion, hcommitted]
  unfold ContactOk at h ⊢
  rw [hversion, hcommitted, hseen]
  exact h

/-- What a call sees depends on its own version. -/
theorem ConversationOk.congr {cell cell' : RowCell Conversation} (h : ConversationOk cell i call)
    (hversion : cell'.version i = cell.version i) (hcommitted : cell'.committed = cell.committed) :
    ConversationOk cell' i call := by
  unfold ConversationOk at h ⊢
  rw [hversion, hcommitted]
  exact h

/-! ### Statements -/

/-- A write changes the version of its transaction only. -/
theorem writeIfSome_spec {cell cell' : RowCell Contact} {x : Option Contact}
    (h : writeIfSome cell i x = some cell') :
    cell'.committed = cell.committed ∧ (∀ j, j ≠ i → cell'.version j = cell.version j) ∧
      cell'.seenBy i = x.or (cell.seenBy i) := by
  rcases x with _ | r
  · cases h
    exact ⟨rfl, fun _ _ => rfl, rfl⟩
  · refine ⟨RowCell.committed_of_write h, ?_, ?_⟩
    · intro j hj
      rw [RowCell.version_of_write h, if_neg hj]
    · refine RowCell.seenBy_of_version ?_
      rw [RowCell.version_of_write h, if_pos rfl]

/-- A write of the conversation as the last statement of a transaction. -/
theorem conversationOk_of_write {cell cell' : RowCell Conversation} {r : Conversation}
    (h : cell.write i r = some cell')
    (htimes : Conversation.times (some r) =
      call.activity.touch (Conversation.times cell.committed)) :
    ConversationOk cell' i { call with stage := .recorded } := by
  refine (if_pos rfl).mpr ⟨r, ?_, ?_⟩
  · rw [RowCell.version_of_write h, if_pos rfl]
  · rw [RowCell.committed_of_write h]
    exact htimes

/-- What a statement does to both rows: nothing that others can see. -/
structure Hidden (s : ActivityRun) (i : ℕ) (contact : RowCell Contact)
    (conversation : RowCell Conversation) : Prop where
  contact_committed : contact.committed = s.contact.committed
  contact_version : ∀ j, j ≠ i → contact.version j = s.contact.version j
  conversation_committed : conversation.committed = s.conversation.committed
  conversation_version : ∀ j, j ≠ i → conversation.version j = s.conversation.version j

/-- **One statement.** Nobody else sees it, and it keeps what is said of its transaction. -/
theorem statement_spec {newId : Uuid} {slaMinutes : Option ℕ} {contact : RowCell Contact}
    {conversation : RowCell Conversation} {stage : ActivityStage} (hok : s.Ok)
    (hcall : s.calls[i]? = some call)
    (h : s.statement who i call newId slaMinutes = some (contact, conversation, stage)) :
    s.Hidden i contact conversation ∧ ContactOk contact i { call with stage := stage } ∧
      ConversationOk conversation i { call with stage := stage } := by
  have hcontact := hok.contact i call hcall
  have hconversation := hok.conversation i call hcall
  rcases call with ⟨⟨kind, occurredAt⟩, profileName, current⟩
  unfold statement at h
  split at h
  · -- The upsert of the contact.
    rename_i hkind hstage
    dsimp only at hkind hstage
    subst hkind hstage
    obtain ⟨cell, hwrite, h⟩ := Option.map_eq_some_iff.mp h
    cases h
    obtain ⟨hcommitted, hversion, hseen⟩ := writeIfSome_spec hwrite
    have hown : s.contact.seenBy i = s.contact.committed := RowCell.seenBy_of_none hcontact
    rw [hown] at hseen
    refine ⟨⟨hcommitted, hversion, rfl, fun _ _ => rfl⟩, ?_, hconversation⟩
    obtain ⟨r, hr, hwindowed, htime⟩ := Contact.upsertRow_spec hok.windowed
    refine ⟨r, hseen.trans hr, hwindowed, ?_⟩
    rw [hcommitted]
    exact htime
  · -- The update of the window.
    rename_i hkind hstage
    dsimp only at hkind hstage
    subst hkind hstage
    obtain ⟨r, hr, hwindowed, htime⟩ := hcontact
    obtain ⟨c, hc, h⟩ := Option.bind_eq_some_iff.mp h
    rw [hr] at hc
    cases hc
    obtain ⟨cell, hwrite, h⟩ := Option.map_eq_some_iff.mp h
    cases h
    obtain ⟨hcommitted, hversion, hseen⟩ := writeIfSome_spec hwrite
    refine ⟨⟨hcommitted, hversion, rfl, fun _ _ => rfl⟩, ?_, hconversation⟩
    obtain ⟨hwindow, hlast⟩ := Contact.openWindow_spec (t := occurredAt) hwindowed
    refine ⟨(r.openWindow occurredAt).getD r, ?_, hwindow, ?_⟩
    · rw [hseen, hr]
      cases r.openWindow occurredAt <;> rfl
    · rw [hlast, hcommitted]
      rcases htime with htime | htime
      · rw [htime]
      · rw [htime, latest_latest]
  · -- The upsert of the conversation, inbound.
    rename_i hkind hstage
    dsimp only at hkind hstage
    subst hkind hstage
    obtain ⟨c, -, h⟩ := Option.bind_eq_some_iff.mp h
    obtain ⟨cell, hwrite, h⟩ := Option.map_eq_some_iff.mp h
    cases h
    have hown : s.conversation.seenBy i = s.conversation.committed :=
      RowCell.seenBy_of_none hconversation
    refine ⟨⟨rfl, fun _ _ => rfl, RowCell.committed_of_write hwrite, ?_⟩, hcontact, ?_⟩
    · intro j hj
      rw [RowCell.version_of_write hwrite, if_neg hj]
    · refine conversationOk_of_write hwrite ?_
      rw [hown]
      exact Conversation.times_recordInboundRow
  · -- The upsert of the conversation, outbound: the contact is there.
    rename_i hkind hstage
    dsimp only at hkind hstage
    subst hkind hstage
    obtain ⟨hnone, hsome⟩ := hcontact
    obtain ⟨c, hc⟩ := Option.isSome_iff_exists.mp hsome
    rw [RowCell.seenBy_of_none hnone, hc] at h
    obtain ⟨cell, hwrite, h⟩ := Option.map_eq_some_iff.mp h
    cases h
    have hown : s.conversation.seenBy i = s.conversation.committed :=
      RowCell.seenBy_of_none hconversation
    refine ⟨⟨rfl, fun _ _ => rfl, RowCell.committed_of_write hwrite, ?_⟩, ⟨hnone, hsome⟩, ?_⟩
    · intro j hj
      rw [RowCell.version_of_write hwrite, if_neg hj]
    · refine conversationOk_of_write hwrite ?_
      rw [hown]
      exact Conversation.times_recordOutboundRow
  · cases h

/-! ### Commits -/

/-- A transaction that may commit has recorded its activity. -/
theorem recorded_of_commit (h : ContactOk s.contact i call)
    (hstage : call.stage = .recorded ∨ call.stage = .unrecorded) : call.stage = .recorded := by
  rcases hstage with hstage | hstage
  · exact hstage
  · unfold ContactOk at h
    rw [hstage] at h
    cases hkind : call.activity.kind <;> rw [hkind] at h <;> exact h.elim

/-- What a transaction that has recorded an activity makes of the contact. -/
theorem time_seenBy_of_recorded {cell : RowCell Contact} (h : ContactOk cell i call)
    (hstage : call.stage = .recorded) (hwindowed : ∀ c, cell.committed = some c → c.Windowed) :
    ∃ r, cell.seenBy i = some r ∧ r.Windowed ∧
      r.lastInboundAt = match call.activity.kind with
        | .inbound => latest (Contact.time cell.committed) call.activity.occurredAt
        | .outbound => Contact.time cell.committed := by
  unfold ContactOk at h
  rw [hstage] at h
  cases hkind : call.activity.kind with
  | inbound =>
      rw [hkind] at h
      exact h
  | outbound =>
      rw [hkind] at h
      obtain ⟨hnone, hsome⟩ := h
      obtain ⟨c, hc⟩ := Option.isSome_iff_exists.mp hsome
      rw [RowCell.seenBy_of_none hnone, hc]
      exact ⟨c, rfl, hwindowed c hc, rfl⟩

/-- A commit keeps what is said of every other transaction: the contact is only ever brought further
up to date. -/
theorem ContactOk.commit {cell : RowCell Contact} {other : ActivityCall}
    (h : ContactOk cell j other) (hne : j ≠ i) (hi : ContactOk cell i call)
    (hstage : call.stage = .recorded) : ContactOk (cell.commit i) j other := by
  have hversion : (cell.commit i).version j = cell.version j := by
    rw [RowCell.version_commit, if_neg hne]
  rcases hown : cell.version i with _ | r
  · refine h.congr hversion ?_
    rw [RowCell.committed_commit, RowCell.seenBy_of_none hown]
  · -- The mover holds the contact, so it is inbound, and the other one has no version of its own.
    have hnone : cell.version j = none := RowCell.version_eq_none_of_ne hown hne
    have hr : r.Windowed ∧
        r.lastInboundAt = latest (Contact.time cell.committed) call.activity.occurredAt := by
      unfold ContactOk at hi
      rw [hstage] at hi
      cases hkind : call.activity.kind with
      | inbound =>
          rw [hkind] at hi
          obtain ⟨r', hr', hwindowed, htime⟩ := hi
          rw [RowCell.seenBy_of_version hown] at hr'
          cases hr'
          exact ⟨hwindowed, htime⟩
      | outbound =>
          rw [hkind] at hi
          rw [hi.1] at hown
          cases hown
    have hcommitted : (cell.commit i).committed = some r := by
      rw [RowCell.committed_commit, RowCell.seenBy_of_version hown]
    have hseen : (cell.commit i).seenBy j = some r := by
      rw [RowCell.seenBy_of_none (hversion.trans hnone), hcommitted]
    unfold ContactOk at h ⊢
    rw [hversion, hcommitted, hseen]
    rw [RowCell.seenBy_of_none hnone] at h
    split at h
    · exact hnone
    · exact hnone
    · exact ⟨r, rfl, hr.1, .inl rfl⟩
    all_goals first | exact ⟨hnone, rfl⟩ | exact h.elim | skip
    all_goals
      obtain ⟨c, hc, -, htime⟩ := h
      refine ⟨r, rfl, hr.1, ?_⟩
      rw [hc] at htime hr
      change r.lastInboundAt = latest r.lastInboundAt _
      rw [hr.2]
      exact (latest_eq_self_of_latest htime.symm).symm

/-- A commit puts one more activity into the times of both rows. -/
theorem Ok.commit (h : s.Ok) (hcall : s.calls[i]? = some call) (hstage : call.stage = .recorded) :
    Ok { contact := s.contact.commit i
         conversation := s.conversation.commit i
         calls := s.calls.set i { call with stage := .over }
         done := call.activity :: s.done } := by
  have hcontact := h.contact i call hcall
  obtain ⟨r, hseen, hwindowed, htime⟩ := time_seenBy_of_recorded hcontact hstage h.windowed
  have hconversation := h.conversation i call hcall
  rw [ConversationOk, if_pos hstage] at hconversation
  obtain ⟨v, hv, htimes⟩ := hconversation
  refine ⟨?_, ?_, ?_, ?_, ?_, ?_, ?_⟩
  · intro j other hother
    rcases getElem?_set_cases hother with ⟨rfl, rfl⟩ | ⟨hne, hother⟩
    · show (s.contact.commit j).version j = none
      rw [RowCell.version_commit, if_pos rfl]
    · exact (h.contact j other hother).commit hne hcontact hstage
  · intro j other hother
    rcases getElem?_set_cases hother with ⟨rfl, rfl⟩ | ⟨hne, hother⟩
    · show (s.conversation.commit j).version j = none
      rw [RowCell.version_commit, if_pos rfl]
    · -- The mover holds the conversation, so no other transaction has recorded an activity.
      have hnone := RowCell.version_eq_none_of_ne hv hne
      have hother' := h.conversation j other hother
      unfold ConversationOk at hother' ⊢
      split_ifs at hother' ⊢
      · obtain ⟨_, hsome, -⟩ := hother'
        rw [hnone] at hsome
        cases hsome
      · rw [RowCell.version_commit, if_neg hne, hnone]
  · intro c hc
    rw [RowCell.committed_commit, hseen] at hc
    cases hc
    exact hwindowed
  · rw [RowCell.committed_commit, hseen, latestTimes_cons, Contact.time, Option.bind_some, htime,
      h.contactTime]
    unfold Activity.touch
    cases call.activity.kind <;> rfl
  · rw [RowCell.committed_commit, RowCell.seenBy_of_version hv, htimes, latestTimes_cons,
      h.conversationTimes]
  · intro _
    rw [RowCell.committed_commit, hseen]
    rfl
  · intro j hj
    rw [List.length_set] at hj
    obtain ⟨hcontactNone, hconversationNone⟩ := h.holders j hj
    rw [RowCell.version_commit, RowCell.version_commit, hcontactNone, hconversationNone]
    simp

/-- A transaction that begins holds no row. -/
theorem Ok.begin (h : s.Ok) (hcontact : ContactOk s.contact s.calls.length call)
    (hstage : call.stage = .begun) : Ok { s with calls := s.calls ++ [call] } := by
  refine { h with contact := ?_, conversation := ?_, holders := ?_ }
  · intro j other hother
    rcases getElem?_append_cases hother with ⟨rfl, rfl⟩ | hother
    · exact hcontact
    · exact h.contact j other hother
  · intro j other hother
    rcases getElem?_append_cases hother with ⟨rfl, rfl⟩ | hother
    · rw [ConversationOk, if_neg (by rw [hstage]; nofun)]
      exact (h.holders _ le_rfl).2
    · exact h.conversation j other hother
  · intro j hj
    rw [List.length_append] at hj
    exact h.holders j (Nat.le_of_add_right_le hj)

/-- A statement of a transaction. -/
theorem Ok.statement {newId : Uuid} {slaMinutes : Option ℕ} {contact : RowCell Contact}
    {conversation : RowCell Conversation} {stage : ActivityStage} (hok : s.Ok)
    (hcall : s.calls[i]? = some call)
    (h : s.statement who i call newId slaMinutes = some (contact, conversation, stage)) :
    Ok { s with
      contact := contact
      conversation := conversation
      calls := s.calls.set i { call with stage := stage } } := by
  obtain ⟨hhidden, hcontact, hconversation⟩ := statement_spec hok hcall h
  have hlt : i < s.calls.length := (List.getElem?_eq_some_iff.mp hcall).1
  refine ⟨?_, ?_, ?_, ?_, ?_, ?_, ?_⟩
  · intro j other hother
    rcases getElem?_set_cases hother with ⟨rfl, rfl⟩ | ⟨hne, hother⟩
    · exact hcontact
    · exact (hok.contact j other hother).congr (hhidden.contact_version j hne)
        hhidden.contact_committed
  · intro j other hother
    rcases getElem?_set_cases hother with ⟨rfl, rfl⟩ | ⟨hne, hother⟩
    · exact hconversation
    · exact (hok.conversation j other hother).congr (hhidden.conversation_version j hne)
        hhidden.conversation_committed
  · rw [hhidden.contact_committed]
    exact hok.windowed
  · rw [hhidden.contact_committed]
    exact hok.contactTime
  · rw [hhidden.conversation_committed]
    exact hok.conversationTimes
  · rw [hhidden.contact_committed]
    exact hok.contactExists
  · intro j hj
    rw [List.length_set] at hj
    have hne : j ≠ i := (hlt.trans_le hj).ne'
    rw [hhidden.contact_version j hne, hhidden.conversation_version j hne]
    exact hok.holders j hj

/-- A transaction that is rolled back. -/
theorem Ok.rollback (h : s.Ok) :
    Ok { s with
      contact := s.contact.rollback i
      conversation := s.conversation.rollback i
      calls := s.calls.set i { call with stage := .over } } := by
  refine ⟨?_, ?_, h.windowed, h.contactTime, h.conversationTimes, h.contactExists, ?_⟩
  · intro j other hother
    rcases getElem?_set_cases hother with ⟨rfl, rfl⟩ | ⟨hne, hother⟩
    · show (s.contact.rollback j).version j = none
      rw [RowCell.version_rollback, if_pos rfl]
    · refine (h.contact j other hother).congr ?_ rfl
      rw [RowCell.version_rollback, if_neg hne]
  · intro j other hother
    rcases getElem?_set_cases hother with ⟨rfl, rfl⟩ | ⟨hne, hother⟩
    · show (s.conversation.rollback j).version j = none
      rw [RowCell.version_rollback, if_pos rfl]
    · refine (h.conversation j other hother).congr ?_ rfl
      rw [RowCell.version_rollback, if_neg hne]
  · intro j hj
    rw [List.length_set] at hj
    obtain ⟨hcontact, hconversation⟩ := h.holders j hj
    rw [RowCell.version_rollback, RowCell.version_rollback, hcontact, hconversation]
    simp

/-- Every step keeps the invariant, and adds at most one activity. -/
theorem ok_step (h : s.Ok) (hstep : s.step who act = some t) :
    t.Ok ∧ (t.done = s.done ∨ ∃ a, t.done = a :: s.done) := by
  cases act with
  | receive occurredAt profileName =>
      cases hstep
      exact ⟨h.begin (h.holders _ le_rfl).1 rfl, .inl rfl⟩
  | accept now occurredAt =>
      obtain ⟨hopen, hstep⟩ := Option.ite_none_right_eq_some.mp hstep
      cases hstep
      refine ⟨h.begin ⟨(h.holders _ le_rfl).1, ?_⟩ rfl, .inl rfl⟩
      -- The window of the policy check is that of a committed contact.
      rcases hc : s.contact.committed with _ | c
      · simp [hc] at hopen
      · rfl
  | statement i newId slaMinutes =>
      obtain ⟨call, hcall, hstep⟩ := Option.bind_eq_some_iff.mp hstep
      obtain ⟨⟨contact, conversation, stage⟩, hstatement, hstep⟩ := Option.map_eq_some_iff.mp hstep
      cases hstep
      exact ⟨h.statement hcall hstatement, .inl rfl⟩
  | commit i =>
      obtain ⟨call, hcall, hstep⟩ := Option.bind_eq_some_iff.mp hstep
      obtain ⟨hstage, hstep⟩ := Option.ite_none_right_eq_some.mp hstep
      cases hstep
      exact ⟨h.commit hcall (recorded_of_commit (h.contact i call hcall) hstage), .inr ⟨_, rfl⟩⟩
  | rollback i =>
      obtain ⟨call, -, hstep⟩ := Option.map_eq_some_iff.mp hstep
      cases hstep
      exact ⟨h.rollback, .inl rfl⟩

/-- The invariant holds in every state that is reached. -/
theorem ok_of_reachable {contact : Option Contact}
    (hfresh : ∀ c, contact = some c → c.lastInboundAt = none ∧ c.serviceWindowExpiresAt = none)
    (h : Reachable (step who) (initial contact) s) : s.Ok :=
  h.invariant (ok_initial hfresh) fun _ _ _ hx _ hstep => (ok_step hx hstep).1

/-! ## The result -/

/-- The end of the service window of a contact that may not exist yet. -/
def windowEnd (c : Option Contact) : Option Time := c.bind Contact.serviceWindowExpiresAt

/-- The window is counted from the last inbound message. -/
theorem Ok.windowEnd_eq (h : s.Ok) :
    windowEnd s.contact.committed =
      (Contact.time s.contact.committed).map (· + serviceWindowMs) := by
  rcases hc : s.contact.committed with _ | c
  · rfl
  · exact h.windowed c hc

/-- No time of the two rows has gone back. -/
structure Forward (s t : ActivityRun) : Prop where
  contact : NotBack (Contact.time s.contact.committed) (Contact.time t.contact.committed)
  window : NotBack (windowEnd s.contact.committed) (windowEnd t.contact.committed)
  inbound : NotBack (Conversation.times s.conversation.committed).inbound
    (Conversation.times t.conversation.committed).inbound
  outbound : NotBack (Conversation.times s.conversation.committed).outbound
    (Conversation.times t.conversation.committed).outbound
  message : NotBack (Conversation.times s.conversation.committed).message
    (Conversation.times t.conversation.committed).message

/-- More activities, later times. -/
theorem latestTimes_notBack (a : Activity) (l : List Activity) :
    NotBack (latestTimes l).inbound (latestTimes (a :: l)).inbound ∧
      NotBack (latestTimes l).outbound (latestTimes (a :: l)).outbound ∧
      NotBack (latestTimes l).message (latestTimes (a :: l)).message := by
  rw [latestTimes_cons]
  unfold Activity.touch
  split
  · exact ⟨notBack_latest _ _, .refl _, notBack_latest _ _⟩
  · exact ⟨.refl _, notBack_latest _ _, notBack_latest _ _⟩

/-- A step does not take a time back. -/
theorem forward_step (h : s.Ok) (hstep : s.step who act = some t) : s.Forward t := by
  obtain ⟨ht, hdone⟩ := ok_step h hstep
  have htimes : NotBack (latestTimes s.done).inbound (latestTimes t.done).inbound ∧
      NotBack (latestTimes s.done).outbound (latestTimes t.done).outbound ∧
      NotBack (latestTimes s.done).message (latestTimes t.done).message := by
    obtain hsame | ⟨a, hcons⟩ := hdone
    · rw [hsame]
      exact ⟨.refl _, .refl _, .refl _⟩
    · rw [hcons]
      exact latestTimes_notBack a s.done
  refine ⟨?_, ?_, ?_, ?_, ?_⟩
  · rw [h.contactTime, ht.contactTime]
    exact htimes.1
  · rw [h.windowEnd_eq, ht.windowEnd_eq, h.contactTime, ht.contactTime]
    exact htimes.1.map_add _
  all_goals rw [h.conversationTimes, ht.conversationTimes]
  · exact htimes.1
  · exact htimes.2.1
  · exact htimes.2.2

/-- A run without steps goes forward. -/
theorem Forward.refl (s : ActivityRun) : s.Forward s :=
  ⟨.refl _, .refl _, .refl _, .refl _, .refl _⟩

/-- Two runs forward are one. -/
theorem Forward.trans {u : ActivityRun} (hst : s.Forward t) (htu : t.Forward u) : s.Forward u :=
  ⟨hst.contact.trans htu.contact, hst.window.trans htu.window, hst.inbound.trans htu.inbound,
    hst.outbound.trans htu.outbound, hst.message.trans htu.message⟩

/-- A run never takes a time back. -/
theorem forward_of_reachable (h : s.Ok) (hreach : Reachable (step who) s t) :
    t.Ok ∧ s.Forward t := by
  refine hreach.invariant (P := fun x => x.Ok ∧ s.Forward x) ⟨h, .refl s⟩ ?_
  intro x act y hx _ hstep
  exact ⟨(ok_step hx.1 hstep).1, hx.2.trans (forward_step hx.1 hstep)⟩

/-- **Activity timestamps.** After every run, whatever the order in which the activities were
committed: the contact has the latest inbound time, and its service window ends twenty-four hours
after it; the conversation has the latest inbound, outbound and overall time; and none of these
times goes back in what follows. -/
theorem activity_times {contact : Option Contact}
    (hfresh : ∀ c, contact = some c → c.lastInboundAt = none ∧ c.serviceWindowExpiresAt = none)
    (h : Reachable (step who) (initial contact) s) :
    (∀ activities, s.done.Perm activities →
      (∀ c, s.contact.committed = some c →
        c.lastInboundAt = (timesOf .inbound activities).max? ∧
          c.serviceWindowExpiresAt =
            (timesOf .inbound activities).max?.map (· + 24 * 60 * 60 * 1000)) ∧
      (∀ c, s.conversation.committed = some c →
        c.lastInboundAt = (timesOf .inbound activities).max? ∧
          c.lastOutboundAt = (timesOf .outbound activities).max? ∧
          some c.lastMessageAt = (activities.map Activity.occurredAt).max?) ∧
      (activities ≠ [] →
        s.contact.committed.isSome ∧ s.conversation.committed.isSome)) ∧
    ∀ t, Reachable (step who) s t → s.Forward t := by
  have hok := ok_of_reachable hfresh h
  refine ⟨?_, fun t ht => (forward_of_reachable hok ht).2⟩
  intro activities hperm
  have hlatest := latestTimes_eq_of_perm hperm
  have hcontact := hok.contactTime
  have hconversation := hok.conversationTimes
  rw [hlatest] at hcontact hconversation
  refine ⟨?_, ?_, ?_⟩
  · intro c hc
    have hwindow := hok.windowed c hc
    rw [hc] at hcontact
    have hlast : c.lastInboundAt = (timesOf .inbound activities).max? := hcontact
    rw [Contact.Windowed, hlast] at hwindow
    exact ⟨hlast, hwindow⟩
  · intro c hc
    rw [hc] at hconversation
    exact ⟨congrArg ConversationTimes.inbound hconversation,
      congrArg ConversationTimes.outbound hconversation,
      congrArg ConversationTimes.message hconversation⟩
  · intro hne
    refine ⟨hok.contactExists fun hnil => hne ?_, ?_⟩
    · rw [hnil] at hperm
      exact hperm.nil_eq.symm
    · -- A conversation without a row has no times.
      rcases hc : s.conversation.committed with _ | c
      · rw [hc] at hconversation
        have hnone := congrArg ConversationTimes.message hconversation
        exact absurd (List.map_eq_nil_iff.mp (List.max?_eq_none_iff.mp hnone.symm)) hne
      · rfl

/-- Three messages out of order and an answer; the second message waits for the first, and the
answer for the second. -/
def sampleActivity : List Act :=
  [.receive 5 (some "Ada"), .receive 9 none, .statement 0 1 none, .statement 0 2 none,
    .statement 0 3 none, .commit 0, .statement 1 4 none, .statement 1 5 none, .accept 6 7,
    .statement 1 6 none, .commit 1, .statement 2 7 none, .commit 2, .receive 3 none,
    .statement 3 8 none, .statement 3 9 none, .statement 3 10 none, .commit 3]

/-- The times of the sample run. -/
theorem activity_times_sample :
    ∃ s c, Reachable (step { tenantId := 1, senderId := 2, phone := "34600" }) (initial none) s ∧
      s.contact.committed = some c ∧ c.lastInboundAt = some 9 ∧
      c.serviceWindowExpiresAt = some 86400009 := by
  have hrun : ((exec (step { tenantId := 1, senderId := 2, phone := "34600" }) (initial none)
      sampleActivity).map fun s => (s.contact.committed.isSome, s.done)) =
      some (true, [⟨.inbound, 3⟩, ⟨.outbound, 7⟩, ⟨.inbound, 9⟩, ⟨.inbound, 5⟩]) := by
    decide
  obtain ⟨s, hs, hfacts⟩ := Option.map_eq_some_iff.mp hrun
  simp only [Prod.mk.injEq] at hfacts
  obtain ⟨hsome, hdone⟩ := hfacts
  obtain ⟨c, hc⟩ := Option.isSome_iff_exists.mp hsome
  have hreach := Reachable.of_exec hs
  obtain ⟨hlast, hwindow⟩ :=
    ((activity_times (by simp) hreach).1 _ (by rw [hdone])).1 c hc
  exact ⟨s, c, hreach, hc, hlast.trans (by decide), hwindow.trans (by decide)⟩

end ActivityRun

end ApiWhatsApp
