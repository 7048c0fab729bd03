import ApiWhatsApp.Config.ProductionConfig
import ApiWhatsApp.Messages.Create
import ApiWhatsApp.Outbound.Dispatch

/-!
# Reading the template catalogue of a WABA

`meta/meta-template.client.ts`: `listTemplates` follows the cursors of the Graph API from page to
page and returns the templates of all of them.

* `MetaTemplateClient` has what the client calls: the configuration, the secrets and `fetch`.
* `extractTemplates` and `extractPaging` read the body of a page; `listPages` is the loop.
* `Serves` is the pagination itself, without the loop: the pages that follow one another, and the
  cursors between them.
* **`listPages_eq_ok_iff`** — the loop returns exactly when there are at most so many pages and
  their cursors are distinct, and then it returns what is on them.

The request itself (its URL and headers) and the text of a response are left out.
-/

namespace ApiWhatsApp

open Library

/-- Source: `interface MetaMessageTemplate`. -/
structure MetaMessageTemplate where
  id : String
  name : String
  language : String
  status : String
  category : Option String
  components : Option (List Json)
  qualityScore : Option Json
  rejectionReason : Option String
  raw : Json

/-- Source: `interface MetaWabaContext`. -/
structure MetaWabaContext where
  internalSenderId : Uuid
  wabaId : String
  accessToken : String

/-- Source: `interface MetaTemplateListResult`. -/
structure MetaTemplateListResult where
  wabaId : String
  senderId : Uuid
  templates : List MetaMessageTemplate

/-- An exception. -/
inductive SyncError where
  | http (error : HttpError)
  | metaApi (error : MetaApiError)
  /-- A plain `Error`. -/
  | other (message : String)
  /-- A statement that the database refuses. -/
  | prisma

/-! ## One page -/

/-- What `response.text()` gives, and `JSON.parse` of it. -/
inductive ResponseText where
  | empty
  | json (value : Json)
  /-- A text that `JSON.parse` refuses. -/
  | invalid (text : String)
  /-- The body breaks off. -/
  | broken (message : String)

/-- How a call of `fetch` ends. -/
inductive FetchOutcome where
  /-- It throws; the message is that of an `Error`. -/
  | failed (message : Option String)
  | response (status : ℕ) (text : ResponseText)

/-- Source: `readResponse`. -/
def readResponse : ResponseText → Except SyncError Json
  | .empty => .ok .null
  | .json value => .ok value
  | .invalid text => .ok (.obj [("raw", .str text)])
  | .broken message => .error (.other message)

/-- A number of an error object. -/
def errorNumber : Json → Option ℤ
  | .num mantissa exponent =>
      if (10 : ℤ) ^ exponent ∣ mantissa then some (mantissa / 10 ^ exponent) else none
  | _ => none

/-- Source: `getPage`, with `extractMetaError`. -/
def getPage : FetchOutcome → Except SyncError Json
  | .failed message =>
      .error (.metaApi
        { message := message.getD "Meta template API request failed"
          httpStatus := none, code := none, subcode := none, retryable := true
          response := none })
  | .response status text =>
      match readResponse text with
      | .error error => .error error
      | .ok body =>
          if 200 ≤ status ∧ status < 300 then .ok body
          else
            let field (key : String) := (body.get? "error").bind fun error => error.get? key
            .error (.metaApi
              { message := ((field "message").bind Json.string?).getD
                  s!"Meta template API returned HTTP {status}"
                httpStatus := some status
                code := (field "code").bind errorNumber
                subcode := (field "error_subcode").bind errorNumber
                retryable := status = 408 || status = 429 || 500 ≤ status
                response := some body })

/-- A response that cannot be used. -/
def unusable (message : String) (response : Option Json) : SyncError :=
  .metaApi
    { message := message, httpStatus := none, code := none, subcode := none, retryable := false
      response := response }

/-- One entry of `data`. -/
def extractTemplate (candidate : Json) : Except SyncError MetaMessageTemplate :=
  let text (key : String) := (candidate.get? key).bind Json.string?
  match candidate with
  | .obj _ =>
      match text "id", text "name", text "language", text "status" with
      | some id, some name, some language, some status =>
          .ok
            { id := id, name := name, language := language
              status := toUpperCase status
              category := (text "category").map toUpperCase
              components := (candidate.get? "components").bind Json.array?
              qualityScore := candidate.get? "quality_score"
              rejectionReason := text "rejected_reason"
              raw := candidate }
      | _, _, _, _ =>
          .error (unusable "Meta template API returned a template without required identity fields"
            (some candidate))
  | _ => .error (unusable "Meta template API returned a malformed template entry" (some candidate))

/-- Source: `extractTemplates`. -/
def extractTemplates (value : Json) : Except SyncError (List MetaMessageTemplate) :=
  match value with
  | .obj _ =>
      match value.get? "data" with
      | some (.arr data) => data.mapM extractTemplate
      | _ =>
          .error (unusable "Meta template API response did not include a data array" (some value))
  | _ => .error (unusable "Meta template API response must be an object" (some value))

/-- What `extractPaging` returns. -/
structure Paging where
  hasNext : Bool
  after : Option String

/-- Source: `extractPaging`. A value that is not an object has no fields. -/
def extractPaging (value : Json) : Paging where
  hasNext := ((value.get? "paging").bind fun paging =>
    (paging.get? "next").bind Json.string?).any (· ≠ "")
  after := ((value.get? "paging").bind fun paging =>
    (paging.get? "cursors").bind fun cursors =>
      (cursors.get? "after").bind Json.string?).filter (· ≠ "")

/-! ## The loop -/

/-- What the client calls. -/
structure MetaTemplateClient where
  /-- `META_GRAPH_API_VERSION`. -/
  graphVersion : Option String
  /-- What `metaGraphUrl` makes of `META_GRAPH_API_BASE_URL`: nothing, or the exception. -/
  graphUrl : Except String Unit
  /-- `secretReferences.resolve(sender.credentialRef)`. -/
  resolveSecret : WhatsAppPhoneNumber → Except String String
  /-- The answer to the request for a page: with its number and its cursor. -/
  fetch : MetaWabaContext → ℕ → Option String → FetchOutcome

/-- Source: `resolveWabaForTenant` in `phone-numbers.service.ts`. -/
def Db.resolveWabaForTenant (db : Db) (tenantId : Uuid) (senderId : Option Uuid) :
    Except HttpError (WhatsAppPhoneNumber × String) :=
  match db.resolveForTenant tenantId senderId with
  | .error error => .error error
  | .ok sender =>
      match sender.wabaId.filter (· ≠ "") with
      | none => .error (.unprocessable "The selected WhatsApp sender is missing its WABA ID")
      | some wabaId => .ok (sender, wabaId)

/-- The body of a page, or the exception. -/
abbrev Ask := ℕ → Option String → Except SyncError Json

/-- The pages from one page on; `templates` has those of the pages before it, and there is room for
`fuel` pages. -/
def listPages (ask : Ask) : ℕ → ℕ → Option String → List String → List MetaMessageTemplate →
    Except SyncError (List MetaMessageTemplate)
  | 0, _, _, _, _ =>
      .error (unusable ("Meta template pagination exceeded the configured 100-page safety " ++
        "limit") none)
  | fuel + 1, page, after, seenCursors, templates =>
      match ask page after with
      | .error error => .error error
      | .ok responseBody =>
          match extractTemplates responseBody with
          | .error error => .error error
          | .ok found =>
              if (extractPaging responseBody).hasNext then
                match (extractPaging responseBody).after with
                | none =>
                    .error (unusable ("Meta template pagination advertised a next page without " ++
                      "an after cursor") (some responseBody))
                | some cursor =>
                    if cursor ∈ seenCursors then
                      .error (unusable "Meta template pagination repeated an after cursor"
                        (some responseBody))
                    else
                      listPages ask fuel (page + 1) (some cursor) (seenCursors ++ [cursor])
                        (templates ++ found)
              else .ok (templates ++ found)

namespace MetaTemplateClient

variable (client : MetaTemplateClient)

/-- Source: `resolveWaba` in `meta-sender-resolver.service.ts`. -/
def resolveWaba (db : Db) (tenantId : Uuid) (senderId : Option Uuid) :
    Except SyncError MetaWabaContext :=
  match db.resolveWabaForTenant tenantId senderId with
  | .error error => .error (.http error)
  | .ok (sender, wabaId) =>
      match client.resolveSecret sender with
      | .error message => .error (.other message)
      | .ok accessToken =>
          .ok { internalSenderId := sender.id, wabaId := wabaId, accessToken := accessToken }

/-- The checks of `META_GRAPH_API_VERSION`. -/
def checkVersion : Except SyncError Unit :=
  match client.graphVersion.filter (· ≠ "") with
  | none => .error (.other "META_GRAPH_API_VERSION is required")
  | some version =>
      if metaGraphVersion version then .ok ()
      else .error (.other "META_GRAPH_API_VERSION must use the format vNN.N")

/-- One page of a WABA. -/
def ask (context : MetaWabaContext) : Ask := fun page after =>
  match client.graphUrl with
  | .error message => .error (.other message)
  | .ok () => getPage (client.fetch context page after)

/-- Source: `listTemplates`. -/
def listTemplates (db : Db) (tenantId : Uuid) (senderId : Option Uuid) :
    Except SyncError MetaTemplateListResult :=
  match client.resolveWaba db tenantId senderId with
  | .error error => .error error
  | .ok context =>
      match client.checkVersion with
      | .error error => .error error
      | .ok () =>
          match listPages (client.ask context) 100 0 none [] [] with
          | .error error => .error error
          | .ok templates =>
              .ok
                { wabaId := context.wabaId, senderId := context.internalSenderId
                  templates := templates }

end MetaTemplateClient

/-! ## The pagination -/

/-- The pages from one page on, and the cursors between them; `ends` is asked of the last page. -/
inductive Serves (ask : Ask) (ends : Json → Bool) :
    ℕ → Option String → List (List MetaMessageTemplate) → List String → Prop
  | last {page : ℕ} {after : Option String} {body : Json} {templates : List MetaMessageTemplate}
      (hask : ask page after = .ok body) (htemplates : extractTemplates body = .ok templates)
      (hlast : (extractPaging body).hasNext = false) (hends : ends body = true) :
      Serves ask ends page after [templates] []
  | next {page : ℕ} {after : Option String} {body : Json} {templates : List MetaMessageTemplate}
      {cursor : String} {pages : List (List MetaMessageTemplate)} {cursors : List String}
      (hask : ask page after = .ok body) (htemplates : extractTemplates body = .ok templates)
      (hnext : extractPaging body = ⟨true, some cursor⟩)
      (hrest : Serves ask ends (page + 1) (some cursor) pages cursors) :
      Serves ask ends page after (templates :: pages) (cursor :: cursors)

section pagination

variable {ask : Ask} {ends : Json → Bool} {page fuel : ℕ} {after : Option String}
  {pages : List (List MetaMessageTemplate)} {cursors seen : List String}
  {templates result : List MetaMessageTemplate}

/-- The last page passes the test or it does not. -/
theorem Serves.ends_or (h : Serves ask (fun _ => true) page after pages cursors)
    (ends : Json → Bool) :
    Serves ask ends page after pages cursors ∨
      Serves ask (fun body => !ends body) page after pages cursors := by
  induction h with
  | @last page after body templates hask htemplates hlast _ =>
      cases hends : ends body with
      | true => exact .inl (.last hask htemplates hlast hends)
      | false => exact .inr (.last hask htemplates hlast (by rw [hends]; rfl))
  | next hask htemplates hnext _ ih =>
      rcases ih with hends | hends
      · exact .inl (.next hask htemplates hnext hends)
      · exact .inr (.next hask htemplates hnext hends)

/-- Less may be said of the cursors. -/
theorem Serves.weaken (h : Serves ask ends page after pages cursors) :
    Serves ask (fun _ => true) page after pages cursors := by
  induction h with
  | last hask htemplates hlast _ => exact .last hask htemplates hlast rfl
  | next hask htemplates hnext _ ih => exact .next hask htemplates hnext ih

/-- The loop follows the pages. -/
theorem Serves.listPages (h : Serves ask ends page after pages cursors)
    (hfuel : pages.length ≤ fuel) (hseen : (seen ++ cursors).Nodup) :
    listPages ask fuel page after seen templates = .ok (templates ++ pages.flatten) := by
  induction h generalizing fuel seen templates with
  | @last page after body found hask htemplates hlast _ =>
      obtain ⟨fuel, rfl⟩ := Nat.exists_eq_add_one.mpr (Nat.lt_of_lt_of_le Nat.zero_lt_one hfuel)
      simp [ApiWhatsApp.listPages, hask, htemplates, hlast]
  | @next page after body found cursor pages cursors hask htemplates hnext _ ih =>
      obtain ⟨fuel, rfl⟩ := Nat.exists_eq_add_one.mpr
        (Nat.lt_of_lt_of_le (Nat.succ_pos _) hfuel)
      have hcursor : cursor ∉ seen := by
        intro hmem
        exact (List.nodup_append.mp hseen).2.2 cursor hmem cursor List.mem_cons_self rfl
      have hseen' : ((seen ++ [cursor]) ++ cursors).Nodup := by
        rw [List.append_assoc]
        exact hseen
      rw [ApiWhatsApp.listPages]
      simp only [hask, htemplates, hnext, hcursor, if_true, if_false]
      rw [ih (Nat.le_of_succ_le_succ hfuel) hseen', List.flatten_cons, List.append_assoc]

/-- The loop returns only after the last page. -/
theorem serves_of_listPages (h : listPages ask fuel page after seen templates = .ok result)
    (hseen : seen.Nodup) :
    ∃ pages cursors, Serves ask (fun _ => true) page after pages cursors ∧
      pages.length ≤ fuel ∧ (seen ++ cursors).Nodup ∧ result = templates ++ pages.flatten := by
  induction fuel generalizing page after seen templates with
  | zero => cases h
  | succ fuel ih =>
      rw [listPages] at h
      split at h
      · cases h
      next body hask =>
        split at h
        · cases h
        next found htemplates =>
          split_ifs at h with hnext
          · split at h
            · cases h
            next cursor hcursor =>
              split_ifs at h with hmem
              have hseen' : (seen ++ [cursor]).Nodup := by
                refine List.nodup_append.mpr ⟨hseen, List.nodup_singleton cursor, ?_⟩
                rintro a ha b hb rfl
                exact hmem (List.mem_singleton.mp hb ▸ ha)
              obtain ⟨pages, cursors, hserves, hlength, hnodup, rfl⟩ := ih h hseen'
              refine ⟨found :: pages, cursor :: cursors, .next hask htemplates ?_ hserves,
                Nat.succ_le_succ hlength, ?_, ?_⟩
              · rw [← hnext, ← hcursor]
              · rw [List.append_assoc] at hnodup
                exact hnodup
              · rw [List.flatten_cons, List.append_assoc]
          · cases h
            refine ⟨[found], [], .last hask htemplates (by simpa using hnext) rfl,
              Nat.succ_le_succ (Nat.zero_le fuel), ?_, ?_⟩
            · rw [List.append_nil]
              exact hseen
            · simp

/-- **The loop** returns exactly when the pages are few enough and their cursors distinct, and then
it returns what is on them. -/
theorem listPages_eq_ok_iff :
    listPages ask fuel 0 none [] [] = .ok result ↔
      ∃ pages cursors, Serves ask (fun _ => true) 0 none pages cursors ∧ pages.length ≤ fuel ∧
        cursors.Nodup ∧ result = pages.flatten := by
  constructor
  · intro h
    obtain ⟨pages, cursors, hserves, hlength, hnodup, hresult⟩ :=
      serves_of_listPages h List.nodup_nil
    exact ⟨pages, cursors, hserves, hlength, hnodup, hresult⟩
  · rintro ⟨pages, cursors, hserves, hlength, hnodup, rfl⟩
    exact hserves.listPages hlength hnodup

/-- Every result of a `mapM` is that of one of the items. -/
theorem exists_of_mem_mapM {α β ε : Type} {f : α → Except ε β} {items : List α} {results : List β}
    (h : items.mapM f = .ok results) {b : β} (hb : b ∈ results) : ∃ a ∈ items, f a = .ok b := by
  induction items generalizing results with
  | nil =>
      cases h
      cases hb
  | cons item rest ih =>
      rw [List.mapM_cons] at h
      cases hitem : f item with
      | error error =>
          rw [hitem] at h
          cases h
      | ok first =>
          rw [hitem] at h
          cases hrest : rest.mapM f with
          | error error =>
              rw [hrest] at h
              cases h
          | ok others =>
              rw [hrest] at h
              cases h
              rcases List.mem_cons.mp hb with rfl | hb
              · exact ⟨item, List.mem_cons_self, hitem⟩
              · obtain ⟨a, ha, hfa⟩ := ih hrest hb
                exact ⟨a, List.mem_cons_of_mem _ ha, hfa⟩

/-- The client upper-cases the statuses that it reads. -/
theorem status_of_extractTemplate {candidate : Json} {template : MetaMessageTemplate}
    (h : extractTemplate candidate = .ok template) :
    toUpperCase template.status = template.status := by
  unfold extractTemplate at h
  split at h
  · dsimp only at h
    split at h
    · cases h
      exact toUpperCase_toUpperCase _
    · cases h
  · cases h

/-- The templates that are served have their status in upper case. -/
theorem Serves.status (h : Serves ask ends page after pages cursors) :
    ∀ template ∈ pages.flatten, toUpperCase template.status = template.status := by
  -- Every template of a page is one of its entries.
  have hpage : ∀ {body : Json} {found : List MetaMessageTemplate},
      extractTemplates body = .ok found →
      ∀ template ∈ found, toUpperCase template.status = template.status := by
    intro body found hfound template htemplate
    unfold extractTemplates at hfound
    split at hfound
    · split at hfound
      · next data _ =>
          obtain ⟨candidate, -, hcandidate⟩ := exists_of_mem_mapM hfound htemplate
          exact status_of_extractTemplate hcandidate
      · cases hfound
    · cases hfound
  induction h with
  | last _ htemplates _ _ =>
      intro template htemplate
      rw [List.flatten_singleton] at htemplate
      exact hpage htemplates template htemplate
  | next _ htemplates _ _ ih =>
      intro template htemplate
      rw [List.flatten_cons] at htemplate
      rcases List.mem_append.mp htemplate with hfound | hrest
      · exact hpage htemplates template hfound
      · exact ih template hrest

end pagination

/-! ## Catalogues -/

/-- A field that may be absent or `null`. -/
def optionalField (value : Json) (key : String) (p : Json → Bool) : Bool :=
  match value.get? key with
  | none | some .null => true
  | some field => p field

/-- The `paging` of a page has the shape that the Graph API gives it. -/
def wellFormedPaging (body : Json) : Bool :=
  let isObject : Json → Bool := fun value => match value with
    | .obj _ => true
    | _ => false
  let isString (value : Json) : Bool := value.string?.isSome
  optionalField body "paging" fun paging =>
    isObject paging && optionalField paging "next" isString &&
      optionalField paging "cursors" fun cursors =>
        isObject cursors && optionalField cursors "after" isString

/-- A complete pagination: at most 100 pages, distinct cursors, and a last page that passes the
test. -/
def Paginates (ask : Ask) (ends : Json → Bool) (templates : List MetaMessageTemplate) : Prop :=
  ∃ pages cursors, Serves ask ends 0 none pages cursors ∧ pages.length ≤ 100 ∧ cursors.Nodup ∧
    templates = pages.flatten

namespace MetaTemplateClient

variable (client : MetaTemplateClient) (db : Db) (tenantId : Uuid) (senderId : Option Uuid)

/-- The client is configured, and the Graph API serves it this catalogue of the WABA; `ends` is
asked of the last page. -/
def Offers (ends : Json → Bool) (context : MetaWabaContext)
    (templates : List MetaMessageTemplate) : Prop :=
  client.resolveWaba db tenantId senderId = .ok context ∧ client.checkVersion = .ok () ∧
    Paginates (client.ask context) ends templates

variable {client db tenantId senderId} {ends : Json → Bool} {context : MetaWabaContext}
  {templates : List MetaMessageTemplate}

/-- The client lists what is offered. -/
theorem Offers.listTemplates (h : client.Offers db tenantId senderId ends context templates) :
    client.listTemplates db tenantId senderId =
      .ok ⟨context.wabaId, context.internalSenderId, templates⟩ := by
  obtain ⟨hcontext, hversion, pages, cursors, hserves, hlength, hnodup, rfl⟩ := h
  have hpages : listPages (client.ask context) 100 0 none [] [] = .ok pages.flatten :=
    listPages_eq_ok_iff.mpr ⟨pages, cursors, hserves.weaken, hlength, hnodup, rfl⟩
  simp only [MetaTemplateClient.listTemplates, hcontext, hversion, hpages]

/-- What is offered has its status in upper case. -/
theorem Offers.status (h : client.Offers db tenantId senderId ends context templates) :
    ∀ template ∈ templates, toUpperCase template.status = template.status := by
  obtain ⟨-, -, pages, cursors, hserves, -, -, rfl⟩ := h
  exact hserves.status

/-- **What the client returns** is a complete catalogue, unless the `paging` of the last page is
malformed. -/
theorem offers_of_listTemplates {result : MetaTemplateListResult}
    (h : client.listTemplates db tenantId senderId = .ok result) :
    ∃ context, client.Offers db tenantId senderId wellFormedPaging context result.templates ∨
      client.Offers db tenantId senderId (fun body => !wellFormedPaging body) context
        result.templates := by
  unfold MetaTemplateClient.listTemplates at h
  split at h
  · cases h
  next context hcontext =>
    split at h
    · cases h
    next hversion =>
      split at h
      · cases h
      next templates hpages =>
        cases h
        obtain ⟨pages, cursors, hserves, hlength, hnodup, hresult⟩ := listPages_eq_ok_iff.mp hpages
        refine ⟨context, ?_⟩
        rcases hserves.ends_or wellFormedPaging with hends | hends
        · exact .inl ⟨hcontext, hversion, pages, cursors, hends, hlength, hnodup, hresult⟩
        · exact .inr ⟨hcontext, hversion, pages, cursors, hends, hlength, hnodup, hresult⟩

end MetaTemplateClient

end ApiWhatsApp
