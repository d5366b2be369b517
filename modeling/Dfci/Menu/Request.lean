import Dfci.Menu.Update

/-! # Requests to the recovery server -/

namespace Dfci

/-- `DFCI_MAIN_LOGIC_STATE` -/
inductive LogicState where
  | preBootstrap
  | bootstrap
  | bootstrapComplete
  | preRecovery
  | recovery
  | recoveryComplete
  | noRecoveryAvailable

inductive HttpMethod where
  | get
  | post

/-- An answer, with the two headers that are read. There is no body if there is no content. -/
structure HttpResponse where
  httpStatus : Nat
  location : Option (List Byte) := none
  retryAfter : Option Nat := none
  body : Option (List Byte) := none

structure HttpAnswer where
  method : HttpMethod
  url : List Byte
  response : HttpResponse

/-- `DFCI_NETWORK_REQUEST` with the flag `DoneProcessing`, the number of requests sent, the seconds waited and the answers
received, the last one first -/
structure NetworkRequest where
  url : List Byte
  bootstrapUrl : List Byte
  menu : MenuState
  logicState : LogicState := .preBootstrap
  httpStatus : Nat := 0
  location : Option (List Byte) := none
  body : Option (List Byte) := none
  doneProcessing : Bool := false
  sent : Nat := 0
  waited : Nat := 0
  answers : List HttpAnswer := []

/-- A network interface and what answers behind it, which may be something else at each time. -/
structure Nic where
  handleProtocol : EfiStatus := .success
  mediaPresent : Bool := true
  buildJsonRequest : NetworkRequest → EfiStatus := fun _ => .success
  configureHttp : NetworkRequest → EfiStatus := fun _ => .success
  processHttpRequest : NetworkRequest → HttpMethod → List Byte → Except Nat HttpResponse
  /-- The elements that reach `ProcessFunction`, and the status that `JsonLibParse` then gives. -/
  jsonLibParse : NetworkRequest → List JsonEntry → List JsonElement × EfiStatus

def delayTable : List Nat := [0, 16, 8, 4, 2, 1]

def delayInSeconds (retryCount : Nat) (response : HttpResponse) : Nat :=
  if response.httpStatus = 429 then
    let requested := response.retryAfter.getD (delayTable.getD retryCount 0)
    if requested < 1 then 1 else if 24 < requested then 24 else requested
  else
    delayTable.getD retryCount 0

namespace NetworkRequest

/-- What `ProcessHttpRequest` leaves: an answer without content leaves the body of an earlier one. -/
def receive (req : NetworkRequest) (response : HttpResponse) : NetworkRequest :=
  { req with
    httpStatus := response.httpStatus
    location := response.location
    body := response.body.or req.body }

def cleanupStatus (req : NetworkRequest) : NetworkRequest :=
  { req with httpStatus := 0, menu := ⟨req.menu.mailboxes, none, none⟩ }

def cleanupResponse (req : NetworkRequest) : NetworkRequest :=
  { req with location := none, body := none }

end NetworkRequest

section

variable (p : Platform) (nic : Nic)

/-- The loop of `ProcessHttpRequestInternal`, by the count after it is decremented. -/
def httpPasses (method : HttpMethod) (url : List Byte) (retryOn202 : Bool) :
    Nat → NetworkRequest → EfiStatus × NetworkRequest
  | retryCount, req =>
    let sent := { req with sent := req.sent + 1 }
    match nic.processHttpRequest req method url with
    | .error code => (.error code, sent)
    | .ok response =>
      let answered := { sent with answers := ⟨method, url, response⟩ :: req.answers }
      match retryCount with
      | 0 => (.success, answered.receive response)
      | retryCount + 1 =>
        if retryOn202 ∧ response.httpStatus = 202 ∨ response.httpStatus = 429 then
          httpPasses method url retryOn202 retryCount
            { answered.cleanupResponse.cleanupStatus with
              waited := req.waited + delayInSeconds (retryCount + 1) response }
        else
          (.success, answered.receive response)

def processHttpRequestWithRetries (method : HttpMethod) (url : List Byte) (retryOn202 : Bool)
    (req : NetworkRequest) : EfiStatus × NetworkRequest :=
  match nic.configureHttp req with
  | .error code => (.error code, req)
  | .success => httpPasses nic method url retryOn202 5 req.cleanupStatus

def processAsyncRequest (url : List Byte) (req : NetworkRequest) : EfiStatus × NetworkRequest :=
  match processHttpRequestWithRetries nic .post url false req with
  | (.error code, req) => (.error code, req)
  | (.success, req) =>
    if req.httpStatus ≠ 202 then
      (.protocolError, req)
    else
      let req := { req with doneProcessing := true }
      match req.location with
      | none => (.protocolError, req)
      | some location =>
        match processHttpRequestWithRetries nic .get location true req with
        | (.error code, req) => (.error code, req)
        | (.success, req) =>
          if req.httpStatus ≠ 200 ∨ req.body = none then (.protocolError, req) else (.success, req)

/-- A request and the use of its answer. -/
def exchange (url : List Byte) (table : List JsonEntry) (answered : LogicState) (req : NetworkRequest) :
    EfiStatus × NetworkRequest :=
  match processAsyncRequest nic url req with
  | (.error code, req) => (.error code, req)
  | (.success, req) =>
    let req := { req with logicState := answered }
    let (elements, status) := nic.jsonLibParse req table
    (status, { req with menu := processElements p table req.menu elements })

/-- One of the two steps of `DfciMainLogic`. `EFI_NOT_FOUND` stands for a server without updates, wherever it comes
from. -/
def mainStep (url : List Byte) (table : List JsonEntry) (answered unchanged complete : LogicState)
    (req : NetworkRequest) : EfiStatus × NetworkRequest :=
  match nic.buildJsonRequest req with
  | .error code => (.error code, req)
  | .success =>
    match exchange p nic url table answered req with
    | (.success, req) | (.notFound, req) => (.success, { req with logicState := unchanged })
    | (.mediaChanged, req) => (.mediaChanged, { req with logicState := complete })
    | (.error code, req) => (.error code, req)

def dfciMainLogic (req : NetworkRequest) : EfiStatus × NetworkRequest :=
  let req := { req with doneProcessing := false, logicState := .preBootstrap }
  match mainStep p nic req.bootstrapUrl recoveryBootstrapResponse .bootstrap .preRecovery .bootstrapComplete
    req with
  | (.success, req) =>
    mainStep p nic req.url recoveryResponse .recovery .noRecoveryAvailable .recoveryComplete req
  | ended => ended

end

/-- The loop of `TryEachNICThenProcessRequest`, with the status so far. `12` is `EFI_NO_MEDIA`. -/
def tryEachNic (p : Platform) : List Nic → EfiStatus → NetworkRequest → EfiStatus × NetworkRequest
  | [], status, req => (status, req)
  | nic :: nics, _, req =>
    match nic.handleProtocol with
    | .error code => tryEachNic p nics (.error code) req
    | .success =>
      if !nic.mediaPresent then
        tryEachNic p nics (.error 12) req
      else
        let (status, req) := dfciMainLogic p nic req
        if req.doneProcessing then (status, req) else tryEachNic p nics status req

def tryEachNICThenProcessRequest (p : Platform) (nics : List Nic) (req : NetworkRequest) :
    EfiStatus × NetworkRequest :=
  tryEachNic p nics .notFound { req with doneProcessing := false }

/-! ## What a request can cost and change -/

theorem delayInSeconds_le (retryCount : Nat) (response : HttpResponse) : delayInSeconds retryCount response ≤ 24 := by
  have table : delayTable.getD retryCount 0 ≤ 24 := by
    rcases retryCount with _ | _ | _ | _ | _ | _ | rest <;> simp [delayTable]
  rw [delayInSeconds]
  split
  · simp only
    split
    · omega
    · split <;> omega
  · exact table

/-! ## Whose answers are used -/

/-- Answers that came through the interface, the last one first, each to a request that was sent after the older ones. -/
def Nic.Gave (nic : Nic) (older : List HttpAnswer) : List HttpAnswer → Prop
  | [] => True
  | answer :: earlier =>
    (∃ req, req.answers = earlier ++ older ∧
      nic.processHttpRequest req answer.method answer.url = .ok answer.response) ∧ nic.Gave older earlier

theorem Nic.Gave.append {nic : Nic} {older first second : List HttpAnswer} (gave : nic.Gave older first)
    (next : nic.Gave (first ++ older) second) : nic.Gave older (second ++ first) := by
  induction second with
  | nil => exact gave
  | cons answer earlier ih =>
    obtain ⟨⟨req, isOlder, answers⟩, others⟩ := next
    exact ⟨⟨req, isOlder.trans (List.append_assoc ..).symm, answers⟩, ih others⟩

/-- The request as its last answer has left it. -/
structure NetworkRequest.LeftBy (req : NetworkRequest) (answer : HttpAnswer) : Prop where
  last : req.answers.head? = some answer
  httpStatus : req.httpStatus = answer.response.httpStatus
  location : req.location = answer.response.location
  body : ∀ content, answer.response.body = some content → req.body = some content

/-- In this session a server has accepted a request, and at the location that it named it has then given the answer that
the request is left with. -/
inductive NetworkRequest.Complete (req : NetworkRequest) (session : List HttpAnswer) : Prop
  | intro (url location : List Byte) (accepted complete : HttpResponse) (posted : ⟨.post, url, accepted⟩ ∈ session)
      (accepts : accepted.httpStatus = 202) (names : accepted.location = some location)
      (polled : ⟨.get, location, complete⟩ ∈ session) (completes : complete.httpStatus = 200)
      (left : req.LeftBy ⟨.get, location, complete⟩) (body : req.body.isSome = true)

theorem NetworkRequest.Complete.withState {req : NetworkRequest} {session : List HttpAnswer}
    (complete : req.Complete session) (logicState : LogicState) :
    NetworkRequest.Complete { req with logicState := logicState } session := by
  obtain ⟨url, location, accepted, answer, posted, accepts, names, polled, completes, left, body⟩ := complete
  exact .intro url location accepted answer posted accepts names polled completes
    ⟨left.last, left.httpStatus, left.location, left.body⟩ body

/-- The packet was found in an answer of this session. -/
def Nic.Delivers (p : Platform) (nic : Nic) (session : List HttpAnswer) (table : List JsonEntry) (box : MailBox)
    (packet : List Byte) : Prop :=
  ∃ req : NetworkRequest, req.Complete session ∧
    ∃ element ∈ (nic.jsonLibParse req table).1, element.Brings p table box packet

def Nic.Fills (p : Platform) (nic : Nic) (session : List HttpAnswer) (before after : MailBox → Option (List Byte)) :
    Prop :=
  ∀ box, after box = before box ∨
    ∃ packet, (nic.Delivers p session recoveryBootstrapResponse box packet ∨
      nic.Delivers p session recoveryResponse box packet) ∧ after box = some packet

/-- What one request loop does. -/
structure Nic.Passed (nic : Nic) (method : HttpMethod) (url : List Byte) (retries : Nat) (session : List HttpAnswer)
    (req : NetworkRequest) (result : EfiStatus × NetworkRequest) : Prop where
  answers : result.2.answers = session ++ req.answers
  gave : nic.Gave req.answers session
  ends : result.1 = .success → ∃ response, ⟨method, url, response⟩ ∈ session ∧ result.2.LeftBy ⟨method, url, response⟩
  mailboxes : result.2.menu.mailboxes = req.menu.mailboxes
  done : result.2.doneProcessing = req.doneProcessing
  sent : result.2.sent ≤ req.sent + (retries + 1)
  waited : result.2.waited ≤ req.waited + 24 * retries

/-- What request loops lead to, with the answers they were given. Each is of six requests at most, with at most 24
seconds between two, and no mailbox is filled before a server has accepted a request. -/
structure Nic.Leads (p : Platform) (nic : Nic) (loops : Nat) (session : List HttpAnswer)
    (before after : NetworkRequest) : Prop where
  answers : after.answers = session ++ before.answers
  gave : nic.Gave before.answers session
  fills : nic.Fills p session before.menu.mailboxes after.menu.mailboxes
  kept : after.doneProcessing = false →
    before.doneProcessing = false ∧ after.menu.mailboxes = before.menu.mailboxes
  sent : after.sent ≤ before.sent + 6 * loops
  waited : after.waited ≤ before.waited + 120 * loops

section

variable {p : Platform} {nic : Nic}

theorem Nic.Delivers.mono {session longer : List HttpAnswer} {table : List JsonEntry} {box : MailBox}
    {packet : List Byte} (delivers : nic.Delivers p session table box packet) (within : session ⊆ longer) :
    nic.Delivers p longer table box packet := by
  obtain ⟨req, ⟨url, location, accepted, complete, posted, accepts, names, polled, completes, left, body⟩, brings⟩ :=
    delivers
  exact ⟨req, .intro url location accepted complete (within posted) accepts names (within polled) completes left body,
    brings⟩

theorem Nic.Fills.mono {session longer : List HttpAnswer} {before after : MailBox → Option (List Byte)}
    (fills : nic.Fills p session before after) (within : session ⊆ longer) : nic.Fills p longer before after := by
  intro box
  refine (fills box).imp_right ?_
  rintro ⟨packet, delivers, written⟩
  exact ⟨packet, delivers.imp (·.mono within) (·.mono within), written⟩

theorem Nic.Leads.refl (loops : Nat) (req : NetworkRequest) : nic.Leads p loops [] req req :=
  ⟨rfl, trivial, fun _ => .inl rfl, fun still => ⟨still, rfl⟩, Nat.le_add_right .., Nat.le_add_right ..⟩

theorem Nic.Leads.trans {loops more : Nat} {first second : List HttpAnswer} {before between after : NetworkRequest}
    (leads : nic.Leads p loops first before between) (next : nic.Leads p more second between after) :
    nic.Leads p (loops + more) (second ++ first) before after where
  answers := by rw [next.answers, leads.answers, List.append_assoc]
  gave := leads.gave.append (leads.answers ▸ next.gave)
  fills := by
    intro box
    rcases next.fills.mono (List.subset_append_left second first) box with kept | filled
    · rw [kept]
      exact leads.fills.mono (List.subset_append_right second first) box
    · exact .inr filled
  kept := fun still =>
    have ⟨idle, same⟩ := next.kept still
    ⟨(leads.kept idle).1, same.trans (leads.kept idle).2⟩
  sent := by have := leads.sent; have := next.sent; omega
  waited := by have := leads.waited; have := next.waited; omega

/-- What is not done leads no further. -/
theorem Nic.Leads.more {loops : Nat} (more : Nat) {session : List HttpAnswer} {before after : NetworkRequest}
    (leads : nic.Leads p loops session before after) : nic.Leads p (loops + more) session before after :=
  leads.trans (.refl more after)

variable (p nic)

theorem passed_answer {method : HttpMethod} {url : List Byte} {response : HttpResponse} {req : NetworkRequest}
    (answers : nic.processHttpRequest req method url = .ok response) (retryCount : Nat) :
    nic.Passed method url retryCount [⟨method, url, response⟩] req (.success, ({ req with
      sent := req.sent + 1, answers := ⟨method, url, response⟩ :: req.answers } : NetworkRequest).receive response) := by
  refine ⟨rfl, ⟨⟨req, rfl, answers⟩, trivial⟩, fun _ => ⟨response, List.mem_singleton_self _, rfl, rfl, rfl, ?_⟩, rfl, rfl,
    by simp [NetworkRequest.receive], by simp [NetworkRequest.receive]⟩
  intro content isBody
  simp only [NetworkRequest.receive] at isBody ⊢
  rw [isBody]
  rfl

theorem httpPasses_passed (method : HttpMethod) (url : List Byte) (retryOn202 : Bool) (retryCount : Nat)
    (req : NetworkRequest) : ∃ session, nic.Passed method url retryCount session req
      (httpPasses nic method url retryOn202 retryCount req) := by
  -- by the retries that are left, each behind one wait
  induction retryCount generalizing req with
  | zero =>
    rw [httpPasses]
    split
    · exact ⟨[], rfl, trivial, nofun, rfl, rfl, le_rfl, le_rfl⟩
    · rename_i response answers
      exact ⟨_, passed_answer nic answers 0⟩
  | succ retryCount ih =>
    rw [httpPasses]
    split
    · exact ⟨[], rfl, trivial, nofun, rfl, rfl, by simp, by simp⟩
    · rename_i response answers
      simp only
      split
      · have short := delayInSeconds_le (retryCount + 1) response
        obtain ⟨session, passed⟩ := ih { req.cleanupResponse.cleanupStatus with
          sent := req.sent + 1, answers := ⟨method, url, response⟩ :: req.answers,
          waited := req.waited + delayInSeconds (retryCount + 1) response }
        have first : nic.Gave req.answers [⟨method, url, response⟩] := ⟨⟨req, rfl, answers⟩, trivial⟩
        refine ⟨session ++ [⟨method, url, response⟩], ?_, first.append passed.gave, fun succeeds => ?_, passed.mailboxes,
          passed.done, passed.sent.trans (by simp; omega), passed.waited.trans (by simp; omega)⟩
        · rw [List.append_assoc]
          exact passed.answers
        · obtain ⟨last, mem, left⟩ := passed.ends succeeds
          exact ⟨last, List.mem_append_left _ mem, left⟩
      · exact ⟨_, passed_answer nic answers (retryCount + 1)⟩

theorem withRetries_leads (method : HttpMethod) (url : List Byte) (retryOn202 : Bool) (req : NetworkRequest) :
    let result := processHttpRequestWithRetries nic method url retryOn202 req
    ∃ session, nic.Leads p 1 session req result.2 ∧ result.2.doneProcessing = req.doneProcessing ∧
      (result.1 = .success →
        ∃ response, ⟨method, url, response⟩ ∈ session ∧ result.2.LeftBy ⟨method, url, response⟩) := by
  rw [processHttpRequestWithRetries]
  split
  · exact ⟨[], .refl 1 _, rfl, nofun⟩
  · obtain ⟨session, passed⟩ := httpPasses_passed nic method url retryOn202 5 req.cleanupStatus
    have done := passed.done
    exact ⟨session, ⟨passed.answers, passed.gave, fun box => .inl (congrFun passed.mailboxes box),
      fun still => ⟨done ▸ still, passed.mailboxes⟩, passed.sent, passed.waited⟩, done, passed.ends⟩

theorem processAsyncRequest_leads (url : List Byte) (req : NetworkRequest) :
    let result := processAsyncRequest nic url req
    ∃ session, nic.Leads p 2 session req result.2 ∧
      (result.1 = .success → result.2.doneProcessing = true ∧ result.2.Complete session) := by
  -- one loop posts the request, the other gets the location that its answer names
  obtain ⟨session, leads, done, ends⟩ := withRetries_leads p nic .post url false req
  rw [processAsyncRequest]
  generalize processHttpRequestWithRetries nic .post url false req = answer at leads done ends
  obtain ⟨status, between⟩ := answer
  cases status with
  | error code => exact ⟨session, leads.more 1, nofun⟩
  | success =>
    obtain ⟨accepted, posted, left⟩ := ends rfl
    simp only
    split
    · exact ⟨session, leads.more 1, nofun⟩
    · rename_i accepts
      -- from here on no other interface is tried
      have accepted : nic.Leads p 1 session req { between with doneProcessing := true } :=
        ⟨leads.answers, leads.gave, leads.fills, nofun, leads.sent, leads.waited⟩
      split
      · exact ⟨session, accepted.more 1, nofun⟩
      · rename_i location named
        obtain ⟨polls, gets, still, ends⟩ := withRetries_leads p nic .get location true
          { between with doneProcessing := true }
        generalize processHttpRequestWithRetries nic .get location true { between with doneProcessing := true } = answer
          at gets still ends
        obtain ⟨status, after⟩ := answer
        have both := accepted.trans gets
        cases status with
        | error code => exact ⟨_, both, nofun⟩
        | success =>
          obtain ⟨complete, polled, leftBy⟩ := ends rfl
          simp only
          split
          · exact ⟨_, both, nofun⟩
          · rename_i isComplete
            have ⟨ok, body⟩ := not_or.mp isComplete
            refine ⟨_, both, fun _ => ⟨still, .intro url location _ complete (List.mem_append_right _ posted) ?_ ?_
              (List.mem_append_left _ polled) ?_ leftBy (Option.isSome_iff_ne_none.mpr body)⟩⟩
            · exact left.httpStatus.symm.trans (not_not.mp accepts)
            · exact left.location.symm.trans named
            · exact leftBy.httpStatus.symm.trans (not_not.mp ok)

theorem exchange_leads {table : List JsonEntry} (network : table = recoveryBootstrapResponse ∨ table = recoveryResponse)
    (url : List Byte) (answered : LogicState) (req : NetworkRequest) :
    ∃ session, nic.Leads p 2 session req (exchange p nic url table answered req).2 := by
  obtain ⟨session, leads, completes⟩ := processAsyncRequest_leads p nic url req
  rw [exchange]
  generalize processAsyncRequest nic url req = answer at leads completes
  obtain ⟨status, between⟩ := answer
  refine ⟨session, ?_⟩
  cases status with
  | error code => exact leads
  | success =>
    obtain ⟨done, complete⟩ := completes rfl
    refine ⟨leads.answers, leads.gave, fun box => ?_, fun still => absurd (done.symm.trans still) nofun, leads.sent,
      leads.waited⟩
    -- what the last element for a mailbox left there
    rcases processElements_filledFrom between.menu _ box with kept | ⟨element, mem, packet, brings, written⟩
    · exact kept ▸ leads.fills box
    · have delivers : nic.Delivers p session table box packet :=
        ⟨{ between with logicState := answered }, complete.withState answered, element, mem, brings⟩
      refine .inr ⟨packet, ?_, written⟩
      rcases network with rfl | rfl
      · exact .inl delivers
      · exact .inr delivers

theorem mainStep_leads {table : List JsonEntry} (network : table = recoveryBootstrapResponse ∨ table = recoveryResponse)
    (url : List Byte) (answered unchanged complete : LogicState) (req : NetworkRequest) :
    ∃ session, nic.Leads p 2 session req (mainStep p nic url table answered unchanged complete req).2 := by
  rw [mainStep]
  split
  · exact ⟨[], .refl 2 _⟩
  · obtain ⟨session, answers, gave, fills, kept, sent, waited⟩ := exchange_leads p nic network url answered req
    generalize exchange p nic url table answered req = result at answers fills kept sent waited
    refine ⟨session, ?_⟩
    split <;> exact ⟨answers, gave, fills, kept, sent, waited⟩

theorem dfciMainLogic_leads (req : NetworkRequest) :
    ∃ session, nic.Leads p 4 session { req with doneProcessing := false, logicState := .preBootstrap }
      (dfciMainLogic p nic req).2 := by
  obtain ⟨bootstrap, first⟩ := mainStep_leads p nic (.inl rfl) req.bootstrapUrl .bootstrap .preRecovery
    .bootstrapComplete { req with doneProcessing := false, logicState := .preBootstrap }
  rw [dfciMainLogic]
  split
  · rename_i between asked
    rw [asked] at first
    obtain ⟨recovery, second⟩ := mainStep_leads p nic (.inr rfl) between.url .recovery .noRecoveryAvailable
      .recoveryComplete between
    exact ⟨_, first.trans second⟩
  · exact ⟨bootstrap, first.more 2⟩

end

/-- The mailboxes were filled from answers that one of the interfaces gave after the older ones. -/
def FilledBy (p : Platform) (nics : List Nic) (before after : NetworkRequest) : Prop :=
  ∃ nic ∈ nics, ∃ session older, after.answers = session ++ older ∧ before.answers <:+ older ∧ nic.Gave older session ∧
    nic.Fills p session before.menu.mailboxes after.menu.mailboxes

structure Tried (p : Platform) (nics : List Nic) (before after : NetworkRequest) : Prop where
  answers : before.answers <:+ after.answers
  filled : after.menu.mailboxes = before.menu.mailboxes ∨
    after.doneProcessing = true ∧ FilledBy p nics before after
  sent : after.sent ≤ before.sent + 24 * nics.length
  waited : after.waited ≤ before.waited + 480 * nics.length

theorem tryEachNic_tried (p : Platform) (nics : List Nic) (status : EfiStatus) (req : NetworkRequest) :
    Tried p nics req (tryEachNic p nics status req).2 := by
  induction nics generalizing status req with
  | nil => exact ⟨List.suffix_refl _, .inl rfl, le_rfl, le_rfl⟩
  | cons nic nics ih =>
    -- the next interface is tried only where this one has left the mailboxes alone
    have next : ∀ status between, req.answers <:+ between.answers →
        between.menu.mailboxes = req.menu.mailboxes → between.sent ≤ req.sent + 24 →
        between.waited ≤ req.waited + 480 →
        Tried p (nic :: nics) req (tryEachNic p nics status between).2 := by
      intro status between answers mailboxes sent waited
      obtain ⟨later, filled, moreSent, moreWaited⟩ := ih status between
      refine ⟨answers.trans later, ?_, by simp only [List.length_cons]; omega, by simp only [List.length_cons]; omega⟩
      rw [mailboxes] at filled
      refine filled.imp_right ?_
      rintro ⟨done, other, mem, session, older, isLog, grows, gave, fills⟩
      rw [mailboxes] at fills
      exact ⟨done, other, .tail _ mem, session, older, isLog, answers.trans grows, gave, fills⟩
    rw [tryEachNic]
    split
    · exact next _ req (List.suffix_refl _) rfl (by simp) (by simp)
    · split
      · exact next _ req (List.suffix_refl _) rfl (by simp) (by simp)
      · obtain ⟨session, leads⟩ := dfciMainLogic_leads p nic req
        have answers : req.answers <:+ (dfciMainLogic p nic req).2.answers :=
          leads.answers ▸ List.suffix_append session _
        simp only
        split
        · rename_i done
          exact ⟨answers, .inr ⟨done, nic, .head _, session, _, leads.answers, List.suffix_refl _, leads.gave, leads.fills⟩,
            leads.sent.trans (by simp only [List.length_cons]; omega),
            leads.waited.trans (by simp only [List.length_cons]; omega)⟩
        · rename_i idle
          exact next _ _ answers (leads.kept (by simpa using idle)).2 leads.sent leads.waited

/-- Servers that keep asking for more time cannot hold the device up. -/
theorem networkRequest_bounded (p : Platform) (nics : List Nic) (req : NetworkRequest) :
    let after := (tryEachNICThenProcessRequest p nics req).2
    after.sent ≤ req.sent + 24 * nics.length ∧ after.waited ≤ req.waited + 480 * nics.length :=
  have tried := tryEachNic_tried p nics .notFound { req with doneProcessing := false }
  ⟨tried.sent, tried.waited⟩

end Dfci
