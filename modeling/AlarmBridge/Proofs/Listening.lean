import AlarmBridge.Push.Listener

/-! What a listener passes on while somebody receives events.  Of the messages of a connection up to
the first that ends it, exactly the texts that are events are passed on, each once and in order; the
connection fails exactly if that message is a fault. -/

set_option autoImplicit false

namespace AlarmBridge.Push

/-- Whether a message ends its connection. -/
def Incoming.ends : Incoming → Bool
  | .close _ | .fault _ => true
  | .text _ | .binary _ | .ping | .pong => false

/-- The event that a message is, if it is a text that is one. -/
def Incoming.event? : Incoming → Option PushEvent
  | .text content => (PushEvent.ofText? content).toOption
  | _ => none

/-- An address and a token with which a connection can be asked for. -/
structure Connectable (url token : String) : Prop where
  address : ((target? url).toOption.bind Url.service?).isSome = true
  token : isSendable token = true

theorem listen_of_connectable {url token : String} (h : Connectable url token) (receiving : Bool)
    (messages : List Incoming) :
    listen url token receiving (.ok messages) =
      (receive receiving messages).after .info "Connected" := by
  have haddress := h.address
  unfold listen
  cases htarget : target? url with
  | error cause =>
    rw [htarget] at haddress
    cases haddress
  | ok u =>
    rw [htarget] at haddress
    have hservice : u.service?.isNone = false := by
      rw [← Option.not_isSome]
      simpa [Except.toOption] using haddress
    simp [hservice, h.token]

/-- How a connection ends when this message does or when none does. -/
def endOf : Option Incoming → Except PushCause Unit
  | some (.fault text) => .error (.read text)
  | _ => .ok ()

/-- After a message that ends the connection nothing is passed on. -/
theorem receive_of_ends {m : Incoming} (h : m.ends = true) (rest : List Incoming) :
    (receive true (m :: rest)).events = [] ∧
      (receive true (m :: rest)).result = endOf (some m) := by
  cases m with
  | close => exact ⟨rfl, rfl⟩
  | fault => exact ⟨rfl, rfl⟩
  | _ => cases h

/-- A message that does not end the connection passes on its event, if it is one, and changes
nothing else. -/
theorem receive_of_not_ends {m : Incoming} (h : m.ends = false) (rest : List Incoming) :
    (receive true (m :: rest)).events = m.event?.toList ++ (receive true rest).events ∧
      (receive true (m :: rest)).result = (receive true rest).result := by
  cases m with
  | text content =>
    rw [receive, Incoming.event?]
    cases PushEvent.ofText? content with
    | error fault => exact ⟨rfl, rfl⟩
    | ok e => exact ⟨rfl, rfl⟩
  | binary => exact ⟨rfl, rfl⟩
  | ping => exact ⟨rfl, rfl⟩
  | pong => exact ⟨rfl, rfl⟩
  | close => cases h
  | fault => cases h

theorem receive_eq (messages : List Incoming) :
    (receive true messages).events = (messages.takeWhile (!·.ends)).filterMap Incoming.event? ∧
      (receive true messages).result = endOf (messages.find? Incoming.ends) := by
  induction messages with
  | nil => exact ⟨rfl, rfl⟩
  | cons m rest ih =>
    cases hends : m.ends with
    | true =>
      obtain ⟨hevents, hresult⟩ := receive_of_ends hends rest
      rw [hevents, hresult, List.find?_cons_of_pos hends]
      simp [hends]
    | false =>
      obtain ⟨hevents, hresult⟩ := receive_of_not_ends hends rest
      rw [hevents, hresult, ih.1, ih.2, List.find?_cons_of_neg (by simp [hends]),
        List.takeWhile_cons_of_pos (by simp [hends]), List.filterMap_cons]
      cases m.event? <;> exact ⟨rfl, rfl⟩

/-- A message that neither is an event nor ends the connection may as well not arrive. -/
theorem receive_without {m : Incoming} (hends : m.ends = false) (hevent : m.event? = none)
    (before rest : List Incoming) :
    (receive true (before ++ m :: rest)).events = (receive true (before ++ rest)).events ∧
      (receive true (before ++ m :: rest)).result = (receive true (before ++ rest)).result := by
  obtain ⟨hevents, hresult⟩ := receive_eq (before ++ m :: rest)
  obtain ⟨hevents', hresult'⟩ := receive_eq (before ++ rest)
  have hkept : (m :: rest).takeWhile (!·.ends) = m :: rest.takeWhile (!·.ends) :=
    List.takeWhile_cons_of_pos (by simp [hends])
  have hend : (m :: rest).find? Incoming.ends = rest.find? Incoming.ends :=
    List.find?_cons_of_neg (by simp [hends])
  rw [hevents, hresult, hevents', hresult', List.takeWhile_append, List.takeWhile_append, hkept,
    List.find?_append, List.find?_append, hend]
  refine ⟨?_, rfl⟩
  split
  · rw [List.filterMap_append, List.filterMap_append, List.filterMap_cons_none hevent]
  · rfl

/-- On a connection that has been made, with somebody receiving events, the texts that are events
are passed on, each once and in order, up to the first close or fault.  The listener succeeds when
the connection is closed or ends, and fails with what went wrong on a fault.  All other messages
might as well not arrive. -/
theorem listening_passes_on_events (url token : String) (h : Connectable url token) :
    (∀ messages : List Incoming,
      (listen url token true (.ok messages)).events =
          (messages.takeWhile (!·.ends)).filterMap Incoming.event? ∧
        ((listen url token true (.ok messages)).result = .ok () ↔
          messages.find? Incoming.ends = none ∨
            ∃ frame, messages.find? Incoming.ends = some (.close frame)) ∧
        ∀ text, (listen url token true (.ok messages)).result = .error (.read text) ↔
          messages.find? Incoming.ends = some (.fault text)) ∧
    ∀ (before rest : List Incoming) (m : Incoming), m.ends = false → m.event? = none →
      (listen url token true (.ok (before ++ m :: rest))).events =
          (listen url token true (.ok (before ++ rest))).events ∧
        (listen url token true (.ok (before ++ m :: rest))).result =
          (listen url token true (.ok (before ++ rest))).result := by
  simp only [listen_of_connectable h, Listened.after]
  refine ⟨fun messages => ?_,
    fun before rest m hends hevent => receive_without hends hevent before rest⟩
  obtain ⟨hevents, hresult⟩ := receive_eq messages
  rw [hevents, hresult]
  refine ⟨rfl, ?_⟩
  cases hfind : messages.find? Incoming.ends with
  | none => exact ⟨by simp [endOf], fun text => by simp [endOf]⟩
  | some m =>
    have hends : m.ends = true := List.find?_some hfind
    cases m with
    | close => exact ⟨by simp [endOf], fun text => by simp [endOf]⟩
    | fault message => exact ⟨by simp [endOf], fun text => by simp [endOf]⟩
    | _ => cases hends

/-- Two events among other messages, and a third after the close. -/
def mixedMessages : List Incoming :=
  [.ping, .text "\x7b\"event_type\": \"doorbell_detected\", \"system_id\": 1\x7d".toList,
    .text "\x7b\"event_type\": \"doorbell_detected\"\x7d".toList, .binary [0xFF],
    .text "[\"armed_home\", 2, null]".toList, .close "None",
    .text "\x7b\"event_type\": \"doorbell_detected\", \"system_id\": 3\x7d".toList]

theorem listening_passes_on_events_mixed :
    Connectable "ws://localhost:9/events" "token" ∧
      (listen "ws://localhost:9/events" "token" true (.ok mixedMessages)).events =
        [⟨.doorbellDetected, 1, none, none, ""⟩, ⟨.other "armed_home", 2, none, none, ""⟩] ∧
      (listen "ws://localhost:9/events" "token" true (.ok mixedMessages)).result = .ok () := by
  have h : Connectable "ws://localhost:9/events" "token" :=
    ⟨by decide +kernel, by decide +kernel⟩
  obtain ⟨hevents, hclosed, -⟩ := (listening_passes_on_events _ _ h).1 mixedMessages
  exact ⟨h, hevents.trans (by decide +kernel), hclosed.mpr (.inr ⟨"None", by decide +kernel⟩)⟩

end AlarmBridge.Push
