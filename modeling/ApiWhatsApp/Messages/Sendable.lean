import ApiWhatsApp.Messages.Idempotency
import ApiWhatsApp.Messages.Payloads

/-!
# What the API accepts and what the worker can send

A row that `create` stores was vetted by the call that stored it; a call that finds a row under its
idempotency key returns that row, whatever the call itself asks for.

* `Vetted` — what stands behind the payload of a draft; `CreateCall.Vets` that a call keeps to it.
* `CheckedSystem` — the system of all `create` calls with the template that each of them has found
  approved. `Act.KeepsContents` is the guard: the other services leave the type, the recipient and
  the payload of a message as they are.
* **`accepted_sendable_iff`** — a row can be sent as it was accepted exactly when the call that stored
  it had a `sendable` payload, and a call that returns the row asked for the same recipient. Media
  payloads always are `sendable`. The body of a text, the components of a template and the blanks
  around a template's name are seen by the worker only.
-/

namespace ApiWhatsApp

open Library

/-! ## The calls of `create` -/

/-- The template that a call has found approved, after a step made on the database. -/
def CreateCall.checks (call : CreateCall) (db : Db) (checked : Option MessageTemplate) :
    Option MessageTemplate :=
  match call.stage with
  | .template _ _ wabaId =>
      (db.assertApproved call.tenantId wabaId call.dto.payload).toOption
  | _ => checked

/-- A call comes to an open stage by a read. -/
theorem CreateCall.afterRead_of_step
    {normalizeMediaPayload : OutboundMessageType → Json → Except String Json}
    {db db' : Db} {now : Time} {call call' : CreateCall} {act : CreateAct}
    (h : step normalizeMediaPayload db now call act = some (db', call'))
    (hopen : call'.stage.isOpen = true) :
    afterRead normalizeMediaPayload db now call = some call'.stage := by
  have herror : ¬call.afterError.stage.isOpen = true := by
    rw [isOpen_afterError call]
    exact Bool.false_ne_true
  cases act with
  | crash =>
      simp only [step] at h
      split at h <;> cases h
      cases hopen
  | call outcome ids =>
      simp only [step] at h
      split at h
      · cases outcome with
        | failed e =>
            cases h
            exact absurd hopen herror
        | interrupted e =>
            obtain ⟨_, -, heq⟩ := Option.map_eq_some_iff.mp h
            cases heq
            exact absurd hopen herror
        | returned =>
            obtain ⟨_, -, heq⟩ := Option.map_eq_some_iff.mp h
            cases heq
            cases hopen
      · split at h <;> cases h
        · assumption
        · cases hopen

/-- What stands behind the payload of a draft: nothing for a text, the normaliser for media, and an
approved template under the trimmed name and language for a template message. -/
inductive Vetted (parseUrl : String → Option Url) (dto : CreateMessageDto)
    (checked : Option MessageTemplate) (payload : Json) : Prop where
  | text (htype : dto.type = .text) (h : payload = dto.payload)
  | media (htype : isMediaMessageType dto.type = true)
      (h : normalizeMediaPayload parseUrl dto.type dto.payload = .ok payload)
  | template (template : MessageTemplate) (htype : dto.type = .template)
      (hchecked : checked = some template) (hstatus : template.status = "APPROVED")
      (hname : nonBlankField dto.payload "name" = some template.name)
      (hlanguage : nonBlankField dto.payload "language" = some template.language)
      (hobject : ∃ fields, dto.payload = .obj fields)
      (h : payload = dto.payload)

/-- The template that `assertApproved` returns is approved, under the trimmed name and language. -/
theorem approved_of_assertApproved {db : Db} {tenantId : Uuid} {wabaId : String} {payload : Json}
    {template : MessageTemplate} (h : db.assertApproved tenantId wabaId payload = .ok template) :
    template.status = "APPROVED" ∧ nonBlankField payload "name" = some template.name ∧
      nonBlankField payload "language" = some template.language ∧
      ∃ fields, payload = .obj fields := by
  obtain ⟨⟨name, language⟩, hidentity, h⟩ := bind_eq_ok.mp h
  dsimp only at h
  split at h
  · rename_i found hfound
    cases h
    obtain ⟨hfind, hstatus⟩ := Option.filter_eq_some_iff.mp hfound
    have hkey := (db.templates.find_eq_some_iff.mp hfind).2
    simp only [Keyed.keys, List.mem_cons, reduceCtorEq, TemplateKey.identity.injEq, false_or,
      List.not_mem_nil, or_false] at hkey
    obtain ⟨-, -, rfl, rfl⟩ := hkey
    unfold extractTemplateIdentity at hidentity
    split at hidentity
    · rename_i fields
      split at hidentity
      · cases hidentity
      · rename_i name hname
        split at hidentity
        · cases hidentity
        · rename_i language hlanguage
          cases hidentity
          exact ⟨by simpa using hstatus, hname, hlanguage, fields, rfl⟩
    · cases hidentity
  · cases h

/-- What is drafted after the reads has been checked. -/
theorem vetted_of_afterRead {parseUrl : String → Option Url} {db : Db} {now : Time}
    {call : CreateCall} {draft : MessageDraft} (checked : Option MessageTemplate)
    (htemplate : ∀ normalizedTo sender wabaId,
      call.stage = .template normalizedTo sender wabaId → call.dto.type = .template)
    (h : call.afterRead (normalizeMediaPayload parseUrl) db now = some (.transact draft)) :
    Vetted parseUrl call.dto (call.checks db checked) draft.payload := by
  unfold CreateCall.afterRead at h
  split at h
  case h_1 =>
    rcases hfound : CreateCall.existing db call with _ | m <;> simp [hfound] at h
  case h_2 =>
    have h := Option.some.inj h
    unfold CreateCall.afterPolicy at h
    split at h <;> cases h
  case h_3 normalizedTo hstage =>
    have h := Option.some.inj h
    split at h
    · rename_i sender hsender
      unfold CreateCall.afterSender at h
      dsimp only at h
      split_ifs at h with hmedia htype
      · split at h
        · rename_i payload hpayload
          cases h
          exact .media hmedia hpayload
        · cases h
      · split at h <;> cases h
      · cases h
        refine .text ?_ rfl
        revert hmedia htype
        cases call.dto.type <;> simp [isMediaMessageType]
    · cases h
  case h_4 normalizedTo sender wabaId hstage =>
    have h := Option.some.inj h
    unfold CreateCall.afterTemplate at h
    split at h
    · cases h
    · rename_i template happroved
      cases h
      obtain ⟨hstatus, hname, hlanguage, hobject⟩ := approved_of_assertApproved happroved
      refine .template template (htemplate _ _ _ hstage) ?_ hstatus hname hlanguage hobject rfl
      simp [CreateCall.checks, hstage, happroved, Except.toOption]
  case h_5 =>
    rcases hfound : CreateCall.existing db call with _ | m <;> simp [hfound] at h
  all_goals cases h

/-- Only a template message is taken to the template check. -/
theorem type_of_afterRead {parseUrl : String → Option Url} {db : Db} {now : Time}
    {call : CreateCall} {normalizedTo : String} {sender : WhatsAppPhoneNumber} {wabaId : String}
    (h : call.afterRead (normalizeMediaPayload parseUrl) db now =
      some (.template normalizedTo sender wabaId)) : call.dto.type = .template := by
  unfold CreateCall.afterRead at h
  split at h
  case h_1 =>
    rcases hfound : CreateCall.existing db call with _ | m <;> simp [hfound] at h
  case h_2 =>
    have h := Option.some.inj h
    unfold CreateCall.afterPolicy at h
    split at h <;> cases h
  case h_3 =>
    have h := Option.some.inj h
    split at h
    · unfold CreateCall.afterSender at h
      dsimp only at h
      split_ifs at h with hmedia htype
      · split at h <;> cases h
      · exact htype
    · cases h
  case h_4 =>
    have h := Option.some.inj h
    unfold CreateCall.afterTemplate at h
    split at h <;> cases h
  case h_5 =>
    rcases hfound : CreateCall.existing db call with _ | m <;> simp [hfound] at h
  all_goals cases h

/-- What holds of a call wherever it has come to, with the template that it has found approved. -/
structure CreateCall.Vets (parseUrl : String → Option Url) (call : CreateCall)
    (checked : Option MessageTemplate) : Prop where
  faithful : call.Faithful
  template : ∀ normalizedTo sender wabaId,
    call.stage = .template normalizedTo sender wabaId → call.dto.type = .template
  vetted : ∀ draft, call.stage = .transact draft → Vetted parseUrl call.dto checked draft.payload

/-- At the beginning nothing has been checked yet. -/
theorem CreateCall.vets_begin (parseUrl : String → Option Url) (tenantId : Uuid)
    (dto : CreateMessageDto) (checked : Option MessageTemplate) :
    (CreateCall.begin tenantId dto).Vets parseUrl checked := by
  have hstage : (CreateCall.begin tenantId dto).stage = .precheck ∨
      (CreateCall.begin tenantId dto).stage = .policy := by
    unfold CreateCall.begin
    split_ifs
    · exact .inl rfl
    · exact .inr rfl
  refine ⟨CreateCall.faithful_begin tenantId dto, ?_, ?_⟩
  · intro normalizedTo sender wabaId htemplate
    rcases hstage with hstage | hstage <;> simp [hstage] at htemplate
  · intro draft hdraft
    rcases hstage with hstage | hstage <;> simp [hstage] at hdraft

/-- A step of a call keeps what it has checked. -/
theorem CreateCall.Vets.step {parseUrl : String → Option Url} {db db' : Db} {now : Time}
    {call call' : CreateCall} {act : CreateAct} {checked : Option MessageTemplate}
    (hcall : call.Vets parseUrl checked)
    (h : call.step (normalizeMediaPayload parseUrl) db now act = some (db', call')) :
    call'.Vets parseUrl (call.checks db checked) := by
  obtain ⟨⟨-, hdto⟩, -⟩ := CreateCall.step_db h
  refine ⟨hcall.faithful.step h, ?_, ?_⟩
  · intro normalizedTo sender wabaId hstage
    have hread := CreateCall.afterRead_of_step h (by rw [hstage]; rfl)
    rw [hstage] at hread
    rw [hdto]
    exact type_of_afterRead hread
  · intro draft hstage
    have hread := CreateCall.afterRead_of_step h (by rw [hstage]; rfl)
    rw [hstage] at hread
    rw [hdto]
    exact vetted_of_afterRead checked hcall.template hread

/-! ## What can be sent -/

/-- A payload that the worker sends as it was accepted: a text has a body that is not blank and, if
any, a boolean `previewUrl`; a template message has its name and language without blanks around
them and, if any, an array of components. -/
def CreateMessageDto.sendable (dto : CreateMessageDto) : Bool :=
  match dto.type with
  | .text =>
      (nonBlankField dto.payload "body").isSome &&
        (dto.payload.get? "previewUrl").all fun value => value.bool?.isSome
  | .template =>
      ["name", "language"].all (fun key =>
        ((dto.payload.get? key).bind Json.string?).all fun text => trim text = text) &&
        (dto.payload.get? "components").all fun value => value.array?.isSome
  | .image | .video | .audio | .document => true

/-- A stored row is sent as it was accepted: to the number that the call asked for, under the name and
language of the template found approved, and with a media payload that the worker leaves as it is. -/
structure SentAsAccepted (parseUrl : String → Option Url) (dto : CreateMessageDto)
    (checked : Option MessageTemplate) (message : Message) : Prop where
  request : ∃ request, mapMessageToMetaPayload parseUrl message = .ok request ∧
    normalizePhoneNumber dto.to_ = .ok request.to_ ∧
    (message.type = .template → ∃ template components, checked = some template ∧
      template.status = "APPROVED" ∧
      request.content = .template template.name template.language components)
  media : ∀ type, isMediaMessageType type = true → message.type = mapType type →
    normalizeMediaPayload parseUrl type message.payload = .ok message.payload

/-- The types are told apart. -/
theorem mapType_inj {type type' : OutboundMessageType} : mapType type = mapType type' ↔ type = type' := by
  cases type <;> cases type' <;> decide

/-- The row that a call has stored: of its type, to its number, with a payload that was vetted. -/
structure CreateCall.Wrote (parseUrl : String → Option Url) (author : CreateCall)
    (checked : Option MessageTemplate) (message : Message) : Prop where
  type : message.type = mapType author.dto.type
  to_ : ∃ normalizedTo, normalizePhoneNumber author.dto.to_ = .ok normalizedTo ∧
    message.to_ = some normalizedTo
  vetted : Vetted parseUrl author.dto checked message.payload

section Sent

variable {parseUrl : String → Option Url} {dto : CreateMessageDto}
  {checked : Option MessageTemplate} {message : Message} {normalizedTo : String}
  (hto : normalizePhoneNumber dto.to_ = .ok normalizedTo)
  (hmap : mapMessageToMetaPayload parseUrl message =
    (asObject message.payload >>= mapByType parseUrl (mapType dto.type) normalizedTo))
  (hsame : message.type = mapType dto.type)

include hto hmap hsame

/-- A text is sent as it was accepted just when it can be sent. -/
theorem sent_text_iff (htype : dto.type = .text) (hpayload : message.payload = dto.payload) :
    SentAsAccepted parseUrl dto checked message ↔ dto.sendable = true := by
  have hsendable : dto.sendable = true ↔ _ :=
    Iff.trans (by simp [CreateMessageDto.sendable, htype])
      (mapTextMessage_ok_iff normalizedTo dto.payload).symm
  rw [htype] at hsame
  rw [htype, hpayload] at hmap
  rw [hsendable]
  constructor
  · rintro ⟨⟨request, hok, hnumber, -⟩, -⟩
    rw [hto] at hnumber
    exact ⟨request, hmap.symm.trans hok, (Except.ok.inj hnumber).symm⟩
  · rintro ⟨request, hok, rfl⟩
    refine ⟨⟨request, hmap.trans hok, hto, by simp [hsame, mapType]⟩, fun type hmedia htype' => ?_⟩
    rw [hsame, mapType_inj] at htype'
    subst htype'
    cases hmedia

/-- A media message is sent as it was accepted. -/
theorem sent_media (hmedia : isMediaMessageType dto.type = true)
    (hpayload : normalizeMediaPayload parseUrl dto.type dto.payload = .ok message.payload) :
    SentAsAccepted parseUrl dto checked message ∧ dto.sendable = true := by
  obtain ⟨hagain, request, hok, rfl⟩ := mapByType_media hmedia hpayload normalizedTo
  have hnot : message.type ≠ .template := by
    rw [hsame]
    revert hmedia
    cases dto.type <;> simp [isMediaMessageType, mapType]
  refine ⟨⟨⟨request, hmap.trans hok, hto, fun htype => absurd htype hnot⟩, ?_⟩, ?_⟩
  · intro type _ htype
    rw [hsame, mapType_inj] at htype
    subst htype
    exact hagain
  · unfold CreateMessageDto.sendable
    revert hmedia
    cases dto.type <;> simp [isMediaMessageType]

/-- A template is sent as it was accepted just when its parts are there. -/
theorem sent_template_iff {template : MessageTemplate} (htype : dto.type = .template)
    (hchecked : checked = some template) (hstatus : template.status = "APPROVED")
    (hname : nonBlankField dto.payload "name" = some template.name)
    (hlanguage : nonBlankField dto.payload "language" = some template.language)
    (hobject : ∃ fields, dto.payload = .obj fields) (hpayload : message.payload = dto.payload) :
    SentAsAccepted parseUrl dto checked message ↔ dto.sendable = true := by
  have hsendable : dto.sendable = true ↔ _ :=
    Iff.trans (by simp [CreateMessageDto.sendable, htype])
      (mapTemplateMessage_ok_iff normalizedTo dto.payload hname hlanguage).symm
  have hasObject : asObject dto.payload = .ok dto.payload := by
    obtain ⟨fields, hfields⟩ := hobject
    rw [hfields, asObject]
  rw [htype] at hsame
  rw [htype, hpayload, hasObject, ok_bind] at hmap
  rw [hsendable]
  constructor
  · rintro ⟨⟨request, hok, hnumber, hcontent⟩, -⟩
    obtain ⟨found, components, hfound, -, hcontent⟩ := hcontent hsame
    obtain rfl := Option.some.inj (hchecked.symm.trans hfound)
    rw [hto] at hnumber
    exact ⟨request, hmap.symm.trans hok, (Except.ok.inj hnumber).symm, components, hcontent⟩
  · rintro ⟨request, hok, rfl, components, hcontent⟩
    refine ⟨⟨request, hmap.trans hok, hto, fun _ => ⟨template, components, hchecked, hstatus, hcontent⟩⟩,
      fun type hmedia htype' => ?_⟩
    rw [hsame, mapType_inj] at htype'
    subst htype'
    cases hmedia

end Sent

/-- The row that a call has stored is sent as the call was accepted exactly when its payload is
`sendable`. -/
theorem CreateCall.Wrote.sentAsAccepted_iff {parseUrl : String → Option Url} {author : CreateCall}
    {checked : Option MessageTemplate} {message : Message}
    (h : author.Wrote parseUrl checked message) :
    SentAsAccepted parseUrl author.dto checked message ↔ author.dto.sendable = true := by
  obtain ⟨hsame, ⟨normalizedTo, hto, hmessage⟩, hvetted⟩ := h
  have hmap : mapMessageToMetaPayload parseUrl message =
      (asObject message.payload >>= mapByType parseUrl (mapType author.dto.type) normalizedTo) := by
    rw [mapMessageToMetaPayload_eq parseUrl hto hmessage, hsame]
  cases hvetted with
  | text htype hpayload => exact sent_text_iff hto hmap hsame htype hpayload
  | media hmedia hpayload =>
      have hsent : SentAsAccepted parseUrl author.dto checked message ∧ author.dto.sendable = true :=
        sent_media hto hmap hsame hmedia hpayload
      exact ⟨fun _ => hsent.2, fun _ => hsent.1⟩
  | template template htype hchecked hstatus hname hlanguage hobject hpayload =>
      exact sent_template_iff hto hmap hsame htype hchecked hstatus hname hlanguage hobject hpayload

/-- For another call the same row is sent as accepted if that call asked for the same number. -/
theorem CreateCall.Wrote.sentAsAccepted_other_iff {parseUrl : String → Option Url}
    {author : CreateCall} {checked : Option MessageTemplate} {message : Message}
    (h : author.Wrote parseUrl checked message) (dto : CreateMessageDto) :
    SentAsAccepted parseUrl dto checked message ↔ author.dto.sendable = true ∧
      normalizePhoneNumber author.dto.to_ = normalizePhoneNumber dto.to_ := by
  rw [← h.sentAsAccepted_iff]
  constructor
  · rintro ⟨⟨request, hok, hnumber, hcontent⟩, hmedia⟩
    obtain ⟨normalizedTo, hto, hmessage⟩ := h.to_
    have hrequest := hok
    rw [mapMessageToMetaPayload_eq parseUrl hto hmessage] at hrequest
    obtain ⟨payload, -, hrequest⟩ := bind_eq_ok.mp hrequest
    obtain rfl := to_of_mapByType hrequest
    exact ⟨⟨⟨request, hok, hto, hcontent⟩, hmedia⟩, hto.trans hnumber.symm⟩
  · rintro ⟨⟨⟨request, hok, hnumber, hcontent⟩, hmedia⟩, heq⟩
    exact ⟨⟨request, hok, heq.symm.trans hnumber, hcontent⟩, hmedia⟩

/-! ## The system of all calls -/

/-- The write of another service leaves the messages of `create` with their type, recipient and
payload. -/
def OtherWrite.KeepsContents (write : OtherWrite) : Prop :=
  ∀ db, ∀ m' ∈ (write.run db).messages.rows, m'.fromCreate = true →
    ∃ m ∈ db.messages.rows, m.fromCreate = true ∧ m'.id = m.id ∧ m'.type = m.type ∧
      m'.to_ = m.to_ ∧ m'.payload = m.payload

/-- The guard on a move. -/
def CreateSystem.Act.KeepsContents : CreateSystem.Act → Prop
  | .other write => write.KeepsContents
  | .tick _ | .begin _ _ _ | .call _ _ => True

/-- The system of all calls, with the template that each call has found approved. -/
structure CheckedSystem where
  system : CreateSystem
  checked : ℕ → Option MessageTemplate

/-- A call has stored the message with the id. -/
def CreateSystem.StoredBy (s : CreateSystem) (j : ℕ) (messageId : Uuid) : Prop :=
  ∃ now t k draft ids, Write.create j now t k draft ids ∈ s.log ∧ ids.messageId = messageId

namespace CheckedSystem

open CreateSystem (Act)

/-- No call has been made. -/
def start (db : Db) (clock : Time) : CheckedSystem where
  system := CreateSystem.start db clock
  checked := fun _ => none

/-- The templates found approved, after a move. -/
def checkedAfter (x : CheckedSystem) : Act → ℕ → Option MessageTemplate
  | .call i _ =>
      Function.update x.checked i
        ((x.system.calls i).bind fun call => call.checks x.system.db (x.checked i))
  | .tick _ | .begin _ _ _ | .other _ => x.checked

/-- One step of the whole system. -/
def step (parseUrl : String → Option Url) (x : CheckedSystem) (a : Act) : Option CheckedSystem :=
  (x.system.step (normalizeMediaPayload parseUrl) a).map fun s =>
    { system := s, checked := x.checkedAfter a }

/-- The one call that has stored the message. -/
structure IsAuthor (x : CheckedSystem) (m : Message) (j : ℕ) (author : CreateCall) : Prop where
  call : x.system.calls j = some author
  only : ∀ j', x.system.StoredBy j' m.id ↔ j' = j

variable {parseUrl : String → Option Url} {x x' : CheckedSystem} {a : Act} {m : Message}

/-- The message was stored by a call of the log, which wrote it as it was vetted. -/
def Stored (parseUrl : String → Option Url) (x : CheckedSystem) (m : Message) : Prop :=
  ∃ j author, x.system.StoredBy j m.id ∧ x.system.calls j = some author ∧
    author.stage.isOpen = false ∧ author.Wrote parseUrl (x.checked j) m

/-- Every call keeps to what it has vetted; the messages of `create` are stored by their authors, and so
are the messages that calls have returned. -/
structure Inv (parseUrl : String → Option Url) (x : CheckedSystem) : Prop where
  vets : ∀ i call, x.system.calls i = some call → call.Vets parseUrl (x.checked i)
  stored : ∀ m ∈ x.system.db.messages.rows, m.fromCreate = true → Stored parseUrl x m
  returned : ∀ i call m, x.system.calls i = some call → call.stage = .returned m →
    Stored parseUrl x m

/-- A call that has left its template stage keeps the template that it has found. -/
theorem checks_of_not_isOpen {call : CreateCall} (db : Db) (checked : Option MessageTemplate)
    (h : call.stage.isOpen = false) : call.checks db checked = checked := by
  obtain ⟨tenantId, dto, stage⟩ := call
  cases stage with
  | template _ _ _ => cases h
  | _ => rfl

/-- What was stored stays so: the log grows, and the author has ended its transaction. -/
theorem Stored.step (h : Stored parseUrl x m) (hstep : x.step parseUrl a = some x') :
    Stored parseUrl x' m := by
  obtain ⟨j, author, ⟨now, t, k, draft, ids, hlog, hid⟩, hj, hclosed, hwrote⟩ := h
  obtain ⟨s, hs, rfl⟩ := Option.map_eq_some_iff.mp hstep
  cases a with
  | tick elapsed =>
      cases hs
      exact ⟨j, author, ⟨now, t, k, draft, ids, hlog, hid⟩, hj, hclosed, hwrote⟩
  | other write =>
      cases hs
      exact ⟨j, author, ⟨now, t, k, draft, ids, List.mem_cons_of_mem _ hlog, hid⟩, hj, hclosed, hwrote⟩
  | begin i tenantId dto =>
      simp only [CreateSystem.step] at hs
      split at hs <;> cases hs
      rename_i hnone
      have hji : j ≠ i := fun hji => by rw [hji, hnone] at hj; cases hj
      exact ⟨j, author, ⟨now, t, k, draft, ids, hlog, hid⟩, by simp [Function.update_of_ne hji, hj],
        hclosed, hwrote⟩
  | call i act =>
      simp only [CreateSystem.step] at hs
      split at hs
      · cases hs
      · rename_i call hi
        obtain ⟨⟨db', call'⟩, hcall, heq⟩ := Option.map_eq_some_iff.mp hs
        cases heq
        have hstored : Write.create j now t k draft ids ∈
            CreateSystem.logged i x.system.clock call act ++ x.system.log :=
          List.mem_append_right _ hlog
        by_cases hji : j = i
        · subst hji
          rw [hi] at hj
          cases hj
          obtain ⟨⟨-, hdto⟩, hcase⟩ := CreateCall.step_db hcall
          have hclosed' : call'.stage.isOpen = false := by
            rcases hcase with ⟨-, -, -, hopen⟩ | ⟨_, _, _, -, -, hopen, -, -⟩
            · rw [← Bool.not_eq_true] at hclosed ⊢
              exact fun h => hclosed (hopen h)
            · rw [hclosed] at hopen
              cases hopen
          refine ⟨j, call', ⟨now, t, k, draft, ids, hstored, hid⟩, by simp, hclosed', ?_⟩
          have hchecked : checkedAfter x (.call j act) j = x.checked j := by
            simp [checkedAfter, hi, checks_of_not_isOpen _ _ hclosed]
          dsimp only
          rw [hchecked]
          exact ⟨by rw [hdto]; exact hwrote.type, by rw [hdto]; exact hwrote.to_,
            by rw [hdto]; exact hwrote.vetted⟩
        · refine ⟨j, author, ⟨now, t, k, draft, ids, hstored, hid⟩,
            by simp [Function.update_of_ne hji, hj], hclosed, ?_⟩
          dsimp only
          rwa [checkedAfter, Function.update_of_ne hji]

/-- A message found under a key is one of `create`. -/
theorem Inv.stored_of_existing (hinv : Inv parseUrl x) {call : CreateCall}
    (h : call.existing x.system.db = some m) : Stored parseUrl x m := by
  obtain ⟨key, -, hfind⟩ := Option.bind_eq_some_iff.mp h
  obtain ⟨hm, hkey⟩ := x.system.db.messages.find_eq_some_iff.mp hfind
  exact hinv.stored m hm (by simp [Message.fromCreate, (mem_keys_idempotencyKey.mp hkey).2])

/-- The message of a committed transaction is stored by the call that committed it. -/
theorem Inv.stored_of_commit (hinv : Inv parseUrl x) {i : ℕ} {call : CreateCall} {act : CreateAct}
    {draft : MessageDraft} {ids : CreateIds} {db' : Db} (hi : x.system.calls i = some call)
    (hcommits : call.commits act = some (draft, ids))
    (hcommit : x.system.db.commitCreate x.system.clock call.tenantId call.dto.idempotencyKey draft ids =
      some (db', m)) (hstep : x.step parseUrl (.call i act) = some x') : Stored parseUrl x' m := by
  obtain ⟨s, hs, rfl⟩ := Option.map_eq_some_iff.mp hstep
  simp only [CreateSystem.step, hi] at hs
  obtain ⟨⟨db₁, call'⟩, hcall, heq⟩ := Option.map_eq_some_iff.mp hs
  cases heq
  have hstage := CreateCall.stage_of_commits hcommits
  obtain ⟨⟨c, rfl⟩, -, -⟩ := Db.commitCreate_spec hcommit
  obtain ⟨⟨-, hdto⟩, ⟨hnone, -⟩ | ⟨_, _, _, -, -, -, hclosed, -⟩⟩ := CreateCall.step_db hcall
  · rw [hcommits] at hnone
    cases hnone
  have hchecked : checkedAfter x (.call i act) i = x.checked i := by
    simp [checkedAfter, hi, CreateCall.checks, hstage]
  have hvets := hinv.vets i call hi
  refine ⟨i, call', ⟨x.system.clock, call.tenantId, call.dto.idempotencyKey, draft, ids, ?_, rfl⟩,
    by simp, hclosed, ?_⟩
  · simp [CreateSystem.logged, hcommits]
  · dsimp only
    rw [hchecked]
    refine ⟨?_, ⟨draft.to_, ?_, rfl⟩, ?_⟩
    · rw [hdto]
      exact (hvets.faithful.draft draft hstage).type
    · rw [hdto]
      exact hvets.faithful.number draft.to_ (by simp [CreateCall.settled, hstage])
    · rw [hdto]
      exact hvets.vetted draft hstage

/-- At the start there are no messages. -/
theorem Inv.start (parseUrl : String → Option Url) {db₀ : Db} {clock : Time}
    (hmessages : db₀.messages.rows = []) : Inv parseUrl (start db₀ clock) where
  vets := fun _ _ h => by cases h
  stored := fun m hm => by
    rw [show (CheckedSystem.start db₀ clock).system.db.messages.rows = [] from hmessages] at hm
    cases hm
  returned := fun _ _ _ h => by cases h

/-- **Every step keeps the invariant**, if the other services keep the contents. -/
theorem Inv.step (hinv : Inv parseUrl x) (hkeeps : a.KeepsContents)
    (hstep : x.step parseUrl a = some x') : Inv parseUrl x' := by
  have hstays : ∀ {m}, Stored parseUrl x m → Stored parseUrl x' m := fun h => h.step hstep
  obtain ⟨s, hs, rfl⟩ := Option.map_eq_some_iff.mp hstep
  cases a with
  | tick elapsed =>
      cases hs
      exact ⟨hinv.vets, fun m hm hfrom => hstays (hinv.stored m hm hfrom),
        fun i call m hi hm => hstays (hinv.returned i call m hi hm)⟩
  | other write =>
      cases hs
      refine ⟨hinv.vets, fun m' hm' hfrom => ?_,
        fun i call m hi hm => hstays (hinv.returned i call m hi hm)⟩
      obtain ⟨m, hm, hfrom, hid, htype, hto, hpayload⟩ := hkeeps x.system.db m' hm' hfrom
      obtain ⟨j, author, hstored, hj, hclosed, hwrote⟩ := hstays (hinv.stored m hm hfrom)
      exact ⟨j, author, by rw [hid]; exact hstored, hj, hclosed, by rw [htype]; exact hwrote.type,
        by rw [hto]; exact hwrote.to_, by rw [hpayload]; exact hwrote.vetted⟩
  | begin i tenantId dto =>
      simp only [CreateSystem.step] at hs
      split at hs <;> cases hs
      refine ⟨fun j call hj => ?_, fun m hm hfrom => hstays (hinv.stored m hm hfrom),
        fun j call m hj hm => ?_⟩
      · by_cases hji : j = i
        · subst hji
          cases (Function.update_self _ _ _).symm.trans hj
          exact CreateCall.vets_begin parseUrl tenantId dto _
        · exact hinv.vets j call ((Function.update_of_ne hji _ _).symm.trans hj)
      · by_cases hji : j = i
        · subst hji
          cases (Function.update_self _ _ _).symm.trans hj
          unfold CreateCall.begin at hm
          split_ifs at hm
        · exact hstays (hinv.returned j call m ((Function.update_of_ne hji _ _).symm.trans hj) hm)
  | call i act =>
      simp only [CreateSystem.step] at hs
      split at hs
      · cases hs
      rename_i call hi
      obtain ⟨⟨db', call'⟩, hcall, heq⟩ := Option.map_eq_some_iff.mp hs
      cases heq
      obtain ⟨-, hcase⟩ := CreateCall.step_db hcall
      refine ⟨fun j c hj => ?_, fun m hm hfrom => ?_, fun j c m hj hm => ?_⟩
      · by_cases hji : j = i
        · subst hji
          cases (Function.update_self _ _ _).symm.trans hj
          dsimp only
          rw [checkedAfter, Function.update_self, hi]
          exact (hinv.vets j call hi).step hcall
        · dsimp only
          rw [checkedAfter, Function.update_of_ne hji]
          exact hinv.vets j c ((Function.update_of_ne hji _ _).symm.trans hj)
      · rcases hcase with ⟨-, rfl, -, -⟩ | ⟨draft, ids, m', hcommits, hcommit, -, -, -⟩
        · exact hstays (hinv.stored m hm hfrom)
        · have hmessages := (Db.commitCreate_spec hcommit).2.1
          dsimp only at hm
          rw [Table.rows_of_insert? hmessages] at hm
          rcases List.mem_cons.mp hm with rfl | hm
          · exact hinv.stored_of_commit hi hcommits hcommit hstep
          · exact hstays (hinv.stored m hm hfrom)
      · by_cases hji : j = i
        · subst hji
          cases (Function.update_self _ _ _).symm.trans hj
          rcases hcase with ⟨-, -, hreturn, -⟩ | ⟨draft, ids, m', hcommits, hcommit, -, -, hreturn⟩
          · exact hstays (hinv.stored_of_existing (hreturn m hm))
          · obtain rfl := hreturn m hm
            exact hinv.stored_of_commit hi hcommits hcommit hstep
        · exact hstays (hinv.returned j c m ((Function.update_of_ne hji _ _).symm.trans hj) hm)

/-- One call has stored a given message: the ids of the logged transactions are distinct. -/
theorem storedBy_unique {db₀ : Db} {s : CreateSystem} (hinv : CreateSystem.Inv db₀ s) {j j' : ℕ}
    {messageId : Uuid} (h : s.StoredBy j messageId) (h' : s.StoredBy j' messageId) : j' = j := by
  obtain ⟨now, t, k, draft, ids, hlog, hid⟩ := h
  obtain ⟨now', t', k', draft', ids', hlog', hid'⟩ := h'
  have hids := hinv.nodup_requested
  rw [hinv.requested, List.map_filterMap] at hids
  have hpairs := List.pairwise_filterMap.mp hids
  by_contra hne
  have hdistinct : Write.create j' now' t' k' draft' ids' ≠ Write.create j now t k draft ids :=
    fun heq => hne (Write.create.inj heq).1
  have hsymm : Std.Symm fun w w' : Write => ∀ b, w.identity.map Prod.fst = some b →
      ∀ b', w'.identity.map Prod.fst = some b' → b ≠ b' :=
    ⟨fun w w' h b hb b' hb' => (h b' hb' b hb).symm⟩
  exact hpairs.forall hlog' hlog hdistinct _ rfl _ rfl (hid'.trans hid.symm)

/-- **Accepted and sendable.** Whatever the calls of `create`, the clock and the other services do, in
any order: the row that a call has stored is sent as the call was accepted exactly when its payload
is `sendable`; and a row that a call returns, exactly when the call that stored it had a `sendable`
payload and asked for the same number. -/
theorem accepted_sendable_iff {db₀ : Db} {clock : Time} (hmessages : db₀.messages.rows = [])
    (hevents : db₀.outboxEvents.rows = [])
    (h : Reaches (step parseUrl) (fun _ a => a.KeepsContents) (start db₀ clock) x) :
    (∀ m ∈ x.system.db.messages.rows, m.fromCreate = true → ∃ j author, x.IsAuthor m j author ∧
        (SentAsAccepted parseUrl author.dto (x.checked j) m ↔ author.dto.sendable = true)) ∧
      ∀ i call m, x.system.calls i = some call → call.stage = .returned m →
        ∃ j author, x.IsAuthor m j author ∧
          (SentAsAccepted parseUrl call.dto (x.checked j) m ↔ author.dto.sendable = true ∧
            normalizePhoneNumber author.dto.to_ = normalizePhoneNumber call.dto.to_) := by
  have hinv : Inv parseUrl x :=
    h.invariant (.start parseUrl hmessages) fun _ _ _ hx hkeeps hstep => hx.step hkeeps hstep
  have hsystem : CreateSystem.Inv db₀ x.system := by
    refine h.invariant (P := fun y => CreateSystem.Inv db₀ y.system) (.start hmessages hevents) ?_
    intro y b z hy _ hstep
    obtain ⟨s, hs, rfl⟩ := Option.map_eq_some_iff.mp hstep
    exact hy.step hs
  have hauthor : ∀ {m j author}, x.system.StoredBy j m.id → x.system.calls j = some author →
      x.IsAuthor m j author := fun hstored hj =>
    ⟨hj, fun j' => ⟨fun hstored' => storedBy_unique hsystem hstored hstored', fun heq => heq ▸ hstored⟩⟩
  constructor
  · intro m hm hfrom
    obtain ⟨j, author, hstored, hj, -, hwrote⟩ := hinv.stored m hm hfrom
    exact ⟨j, author, hauthor hstored hj, hwrote.sentAsAccepted_iff⟩
  · intro i call m hi hm
    obtain ⟨j, author, hstored, hj, -, hwrote⟩ := hinv.returned i call m hi hm
    exact ⟨j, author, hauthor hstored hj, hwrote.sentAsAccepted_other_iff call.dto⟩

/-! ## Two calls under one key -/

/-- A text message to the contact, with any payload. -/
def textDto (payload : Json) : CreateMessageDto := { sampleDto with payload := payload }

/-- The same number in another spelling, with nothing in the payload. -/
def replayDto : CreateMessageDto := { sampleDto with to_ := " 5511999999999", payload := .obj [] }

/-- Call `0` stores a text, then call `1` comes under the same key. -/
def sampleReplay (payload : Json) : List Act :=
  let go (i : ℕ) : Act := .call i (.call .returned sampleIds)
  [.begin 0 1 (textDto payload), go 0, go 0, go 0, go 0, .begin 1 1 replayDto, go 1]

/-- The sample run keeps the contents. -/
theorem reaches_sampleReplay {payload : Json}
    (h : exec (step parseUrl) (start sampleDb 0) (sampleReplay payload) = some x) :
    Reaches (step parseUrl) (fun _ a => a.KeepsContents) (start sampleDb 0) x := by
  refine Reaches.of_exec h fun y hy => ?_
  have hlabel := label_mem_of_mem_trace hy
  generalize y.2.1 = a at hlabel ⊢
  simp only [sampleReplay, List.mem_cons, List.not_mem_nil, or_false] at hlabel
  rcases hlabel with rfl | rfl | rfl | rfl | rfl | rfl | rfl <;> trivial

/-- The message that a call has returned. -/
def returnedBy (x : CheckedSystem) (i : ℕ) : Option (CreateMessageDto × Message) :=
  (x.system.calls i).bind fun call =>
    match call.stage with
    | .returned m => some (call.dto, m)
    | _ => none

/-- What was returned was returned by a call. -/
theorem calls_of_returnedBy {i : ℕ} {dto : CreateMessageDto}
    (h : x.returnedBy i = some (dto, m)) :
    ∃ call, x.system.calls i = some call ∧ call.dto = dto ∧ call.stage = .returned m := by
  obtain ⟨call, hcall, hreturned⟩ := Option.bind_eq_some_iff.mp h
  split at hreturned
  · rename_i hstage
    cases hreturned
    exact ⟨call, hcall, rfl, hstage⟩
  · cases hreturned

/-- What the log says was stored by a call. -/
theorem storedBy_of_log {s : CreateSystem} {j : ℕ} {messageId : Uuid}
    (h : (some j, some messageId) ∈ s.log.map fun w => (w.author, w.identity.map Prod.fst)) :
    s.StoredBy j messageId := by
  obtain ⟨w, hw, heq⟩ := List.mem_map.mp h
  cases w with
  | create i now t k draft ids =>
      cases heq
      exact ⟨now, t, k, draft, ids, hw, rfl⟩
  | other write => cases heq

/-- Call `1` returns the row of call `0`, which is sent as call `1` was accepted although its own
payload could not be sent. -/
theorem accepted_sendable_replayed : ∃ x dto m,
    Reaches (step fun _ => none) (fun _ a => a.KeepsContents) (start sampleDb 0) x ∧
      x.returnedBy 1 = some (dto, m) ∧ dto.sendable = false ∧
      SentAsAccepted (fun _ => none) dto (x.checked 0) m := by
  have hrun : ((exec (step fun _ => none) (start sampleDb 0)
      (sampleReplay (.obj [("body", .str "hi")]))).any fun x =>
        (x.returnedBy 1).any (fun r => r.1.to_ = " 5511999999999" && !r.1.sendable && r.2.id = 100) &&
        (x.returnedBy 0).any (fun r => r.1.to_ = "+5511999999999" && r.1.sendable) &&
        x.system.log.map (fun w => (w.author, w.identity.map Prod.fst)) = [(some 0, some 100)]) =
      true := by
    decide
  obtain ⟨x, hx, hstate⟩ := (Option.any_eq_true _ _).mp hrun
  simp only [Bool.and_eq_true, decide_eq_true_eq] at hstate
  obtain ⟨⟨hreplayed, hstored⟩, hlog⟩ := hstate
  obtain ⟨⟨dto, m⟩, hreturned, hdto⟩ := (Option.any_eq_true _ _).mp hreplayed
  obtain ⟨⟨dto₀, m₀⟩, hfirst, hdto₀⟩ := (Option.any_eq_true _ _).mp hstored
  simp only [Bool.and_eq_true, decide_eq_true_eq, Bool.not_eq_true'] at hdto hdto₀
  obtain ⟨⟨hto, hnot⟩, hid⟩ := hdto
  obtain ⟨call, hcall, rfl, hstage⟩ := calls_of_returnedBy hreturned
  obtain ⟨author₀, hauthor₀, rfl, -⟩ := calls_of_returnedBy hfirst
  have hreach := reaches_sampleReplay hx
  obtain ⟨j, author, hauthor, hiff⟩ :=
    (accepted_sendable_iff rfl rfl hreach).2 1 call m hcall hstage
  -- The author is call `0`, which asked for the same number with a text that can be sent.
  obtain rfl : 0 = j := (hauthor.only 0).mp (storedBy_of_log (by rw [hlog, hid]; simp))
  obtain rfl := Option.some.inj (hauthor₀.symm.trans hauthor.call)
  refine ⟨x, call.dto, m, hreach, hreturned, hnot, hiff.mpr ⟨hdto₀.2, ?_⟩⟩
  rw [hto, hdto₀.1]
  decide

/-- A text without a body is accepted and cannot be sent. -/
theorem accepted_text_not_sent :
    ¬∀ (parseUrl : String → Option Url) (db₀ : Db) (clock : Time) (x : CheckedSystem),
      db₀.messages.rows = [] → db₀.outboxEvents.rows = [] →
      Reaches (step parseUrl) (fun _ a => a.KeepsContents) (start db₀ clock) x →
      ∀ i call m, x.system.calls i = some call → call.stage = .returned m →
        ∃ checked, SentAsAccepted parseUrl call.dto checked m := by
  intro hall
  have hrun : ((exec (step fun _ => none) (start sampleDb 0) (sampleReplay (.obj []))).any fun x =>
      (x.returnedBy 0).any fun r =>
        (mapMessageToMetaPayload (fun _ => none) r.2).toOption.isNone) = true := by
    decide
  obtain ⟨x, hx, hstate⟩ := (Option.any_eq_true _ _).mp hrun
  obtain ⟨⟨dto, m⟩, hreturned, hfails⟩ := (Option.any_eq_true _ _).mp hstate
  obtain ⟨call, hcall, rfl, hstage⟩ := calls_of_returnedBy hreturned
  obtain ⟨checked, ⟨request, hok, -⟩, -⟩ :=
    hall _ sampleDb 0 x rfl rfl (reaches_sampleReplay hx) 0 call m hcall hstage
  rw [hok] at hfails
  cases hfails

end CheckedSystem

end ApiWhatsApp
