import AlarmBridge.Daemon.Start
import AlarmBridge.Proofs.Mirror
import AlarmBridge.Proofs.Rebuild
import AlarmBridge.Proofs.Shutter

/-! The bearer token of a running daemon.  A token that is configured stands throughout; otherwise
the token is the last one, empty ones apart, that the snapshots taken over so far had.  A file that
cannot be read or is no snapshot leaves it.  Cameras are asked with the token of the moment. -/

set_option autoImplicit false

namespace AlarmBridge

open Bridge (Step)

/-- The token after some tokens have been told in turn: the last that is not empty, if there is
one. -/
def lastToken (told : List String) : String := (told.filter (· ≠ "")).getLast?.getD ""

theorem lastToken_append_singleton (told : List String) (token : String) :
    lastToken (told ++ [token]) = if token.isEmpty then lastToken told else token := by
  unfold lastToken
  rw [List.filter_append, List.getLast?_append]
  by_cases h : token = ""
  · simp [h]
  · simp [h, String.isEmpty_iff]

/-- Where all are the same, it is that one. -/
theorem lastToken_eq_of_forall {told : List String} {token : String} (hne : told ≠ [])
    (h : ∀ t ∈ told, t = token) : lastToken told = token := by
  by_cases htoken : token = ""
  · have hnone : told.filter (· ≠ "") = [] :=
      List.filter_eq_nil_iff.mpr fun t ht => by simp [h t ht, htoken]
    rw [lastToken, hnone, htoken]
    rfl
  · obtain ⟨before, last, rfl⟩ := (List.eq_nil_or_concat told).resolve_left hne
    have hlast : last = token := h last (by simp)
    rw [List.concat_eq_append, lastToken_append_singleton, hlast,
      if_neg fun hempty => htoken (String.isEmpty_iff.mp hempty)]

namespace Daemon

/-- The token of the snapshot that reading a file came to, if it came to one. -/
def tokenIn? (content : Except IoError Bytes) : Option String :=
  (content.bind textOf).toOption.bind fun text =>
    (Snapshot.ofText? text).toOption.map (·.accessToken)

/-- One thing that happens to a running daemon: its snapshot file is read again, with what that
comes to, or its bridge takes a step. -/
inductive Turn
  | reread (content : Except IoError Bytes)
  | step (s : Step)

namespace Turn

/-- The token of the snapshot that is taken over, if one is. -/
def token? : Turn → Option String
  | .reread content => tokenIn? content
  | .step s => s.dump?.map (·.accessToken)

/-- Whether the snapshot taken over, if one is, comes from the file. -/
def FromFile : Turn → Prop
  | .reread _ => True
  | .step s => s.dump? = none

/-- The token that is taken over where a source may have one of its own. -/
def taken? (source : SnapshotSource) : Turn → Option String
  | .reread content => (tokenIn? content).map fun token => source.token.getD token
  | .step s => s.dump?.map (·.accessToken)

theorem taken?_of_none {source : SnapshotSource} (h : source.token = none) :
    taken? source = token? := by
  funext turn
  cases turn with
  | reread content => simp [taken?, token?, h]
  | step s => rfl

/-- Where a source has a token, every snapshot from the file comes with it. -/
theorem eq_of_taken? {source : SnapshotSource} {turn : Turn} {own token : String}
    (h : source.token = some own) (hfile : turn.FromFile)
    (htaken : turn.taken? source = some token) :
    token = own := by
  cases turn with
  | reread content =>
    obtain ⟨-, -, rfl⟩ := Option.map_eq_some_iff.mp htaken
    rw [h, Option.getD_some]
  | step s =>
    have hnone : s.dump? = none := hfile
    rw [taken?, hnone] at htaken
    cases htaken

end Turn

namespace Running

def after (d : Running) : Turn → Running
  | .reread content => (d.refresh content).1
  | .step s => { d with bridge := (d.bridge.step s).1 }

def run (d : Running) (turns : List Turn) : Running := turns.foldl after d

theorem run_append_singleton (d : Running) (turns : List Turn) (turn : Turn) :
    d.run (turns ++ [turn]) = (d.run turns).after turn := List.foldl_append

end Running

/-- A snapshot is loaded exactly from a file with one in it, with the token of the source in place
of its own if the source has one. -/
theorem load_toOption (source : SnapshotSource) (content : Except IoError Bytes) :
    (source.load content).toOption.map (·.accessToken) =
      (tokenIn? content).map fun token => source.token.getD token := by
  unfold SnapshotSource.load tokenIn?
  cases content.bind textOf with
  | error e => rfl
  | ok text =>
    simp only [Except.toOption, Option.bind_some]
    cases Snapshot.ofText? text <;> rfl

theorem session_refresh (d : Running) (content : Except IoError Bytes) :
    (d.refresh content).1.bridge.session =
      match (d.source.load content).toOption with
      | none => d.bridge.session
      | some snapshot => d.bridge.session.apply snapshot := by
  unfold Running.refresh
  cases d.source.load content with
  | error f => rfl
  | ok snapshot =>
    exact (congrArg Bridge.session (Bridge.bare_refresh (d.bridge.apply snapshot)) :)

namespace Running

variable {d : Running}

theorem source_after (d : Running) (turn : Turn) : (d.after turn).source = d.source := by
  cases turn with
  | reread content =>
    show (d.refresh content).1.source = d.source
    unfold refresh
    split <;> rfl
  | step s => rfl

theorem source_run (d : Running) (turns : List Turn) : (d.run turns).source = d.source :=
  List.foldlRecOn (motive := fun d' => d'.source = d.source) turns after rfl
    fun d' hd' turn _ => (source_after d' turn).trans hd'

/-- What a turn makes of the token. -/
theorem token_after (d : Running) (turn : Turn) :
    (d.after turn).bridge.session.token =
      match turn.taken? d.source with
      | none => d.bridge.session.token
      | some token => if token.isEmpty then d.bridge.session.token else token := by
  cases turn with
  | reread content =>
    have htoken := load_toOption d.source content
    show (d.refresh content).1.bridge.session.token = _
    rw [session_refresh, Turn.taken?, ← htoken]
    cases (d.source.load content).toOption with
    | none => rfl
    | some snapshot => exact (Session.apply_header _ snapshot).2
  | step s =>
    have hsession : (d.after (.step s)).bridge.session = d.bridge.session.after s :=
      (Bridge.steady_step d.bridge s).session
    rw [hsession, Turn.taken?]
    cases s with
    | apply next => exact (Session.apply_header _ next).2
    | poll text =>
      simp only [Session.after, Step.dump?]
      cases Snapshot.ofText? text with
      | error fault => rfl
      | ok next => exact (Session.apply_header _ next).2
    | _ => rfl

/-- The token stays the last one that was taken over. -/
theorem token_run {told : List String} (h : d.bridge.session.token = lastToken told)
    (turns : List Turn) :
    (d.run turns).bridge.session.token =
      lastToken (told ++ turns.filterMap (Turn.taken? d.source)) := by
  induction turns using List.reverseRecOn with
  | nil => simpa [run] using h
  | append_singleton turns turn ih =>
    rw [run_append_singleton, token_after, source_run, ih, List.filterMap_append]
    cases htaken : turn.taken? d.source with
    | none => simp [htaken]
    | some token => simp [htaken, ← List.append_assoc, lastToken_append_singleton]

/-- What a turn asks the grabber to read from is asked with the token that the session has. -/
theorem calls_after (d : Running) (turn : Turn) :
    ∃ calls, (d.after turn).bridge.grabber.calls = d.bridge.grabber.calls ++ calls ∧
      ∀ call ∈ calls, ∀ input, call.input? = some input →
        input.token = d.bridge.session.token := by
  cases turn with
  | reread content =>
    refine ⟨[], ?_, by simp⟩
    show (d.refresh content).1.bridge.grabber.calls = _
    unfold refresh
    split
    · next snapshot _ =>
      have hgrabber := congrArg Bridge.grabber (Bridge.bare_refresh (d.bridge.apply snapshot))
      rw [List.append_nil]
      exact (congrArg Grabber.calls hgrabber :)
    · exact (List.append_nil _).symm
  | step s =>
    refine ⟨_, Bridge.calls_step d.bridge s, fun call hcall input hinput => ?_⟩
    obtain ⟨i, e, -, -, rfl⟩ := Bridge.input_of_mem_calling hcall hinput
    rfl

end Running

/-- A daemon that runs has started with the snapshot in its file. -/
theorem begin_running {p : Plan} {content : Except IoError Bytes} {d : Running}
    (h : (p.begin content).1 = .running d) :
    d.source = sourceOf p.config ∧ ∃ first, (sourceOf p.config).load content = .ok first ∧
      d.bridge.session = Session.ofSnapshot p.entryId first := by
  unfold Plan.begin at h
  simp only at h
  split at h
  · cases h
  · split at h
    · cases h
    · next first hload =>
      obtain rfl := Started.running.inj h
      exact ⟨rfl, first, hload, (congrArg Bridge.session (Bridge.bare_publishAll _) :)⟩

/-- Of every daemon that starts and whatever happens to it: where a token is configured and
snapshots come from the file, the token of the session is that; where none is, it is the last one,
empty ones apart, of the first snapshot and those taken over since.  What cameras are read from
shows it, and every call to the grabber is made with the token that the session has at that
moment. -/
theorem token_is_current {p : Plan} {content : Except IoError Bytes} {d : Running}
    (hstart : (p.begin content).1 = .running d) (turns : List Turn) :
    let token := (d.run turns).bridge.session.token
    (p.config.account.accessToken = none → token =
      lastToken ((tokenIn? content).toList ++ turns.filterMap Turn.token?)) ∧
    (∀ own, p.config.account.accessToken = some own → (∀ turn ∈ turns, turn.FromFile) →
      token = own) ∧
    (∀ e, ((d.run turns).bridge.streamInput e).token = token ∧
      ((d.run turns).bridge.streamInput e).describe =
        "-re -headers \"Authorization: Bearer " ++ token ++ "\" -i \"" ++
          ((d.run turns).bridge.streamInput e).url ++ "\"") ∧
    ∀ turn, ∃ calls,
      ((d.run turns).after turn).bridge.grabber.calls =
        (d.run turns).bridge.grabber.calls ++ calls ∧
      ∀ call ∈ calls, ∀ input, call.input? = some input → input.token = token := by
  intro token
  obtain ⟨hsource, first, hload, hsession⟩ := begin_running hstart
  have hfirst : (tokenIn? content).map (fun token => d.source.token.getD token) =
      some first.accessToken := by
    rw [← load_toOption, hsource, hload]
    rfl
  have hlast : d.bridge.session.token = lastToken [first.accessToken] := by
    rw [hsession]
    show first.accessToken = _
    rw [← List.nil_append [first.accessToken], lastToken_append_singleton]
    split
    · next hempty => exact String.isEmpty_iff.mp hempty
    · rfl
  have htoken : token = _ := Running.token_run hlast turns
  refine ⟨fun hnone => ?_, fun own hown hfile => ?_, fun e => ⟨rfl, rfl⟩, (d.run turns).calls_after⟩
  · have hnone : d.source.token = none := by rw [hsource]; exact hnone
    have htold : tokenIn? content = some first.accessToken := by simpa [hnone] using hfirst
    rw [htoken, Turn.taken?_of_none hnone, htold]
    rfl
  · have hown : d.source.token = some own := by rw [hsource]; exact hown
    have hsame : first.accessToken = own := by
      obtain ⟨_, -, hsame⟩ := Option.map_eq_some_iff.mp hfirst
      rw [hown, Option.getD_some] at hsame
      exact hsame.symm
    rw [htoken]
    refine lastToken_eq_of_forall (by simp) fun told htold => ?_
    rcases List.mem_cons.mp htold with hfirst | htold
    · exact hfirst.trans hsame
    · obtain ⟨turn, hturn, htaken⟩ := List.mem_filterMap.mp htold
      exact Turn.eq_of_taken? hown (hfile turn hturn) htaken

/-- The default configuration without a token of its own. -/
def tokenlessPlan : Plan := ⟨Config.default (some (.ofString "/etc")), "home", .ofText "info"⟩

/-- A file with a token and no system. -/
def fileWith (token : String) : Except IoError Bytes :=
  .ok (Text.encode ("\x7b\"access_token\": \"" ++ token ++ "\", \"systems\": []\x7d").toList)

/-- Files that are missing, without a token or empty leave the token of the one read before them. -/
theorem token_is_current_reread :
    ∃ d, (tokenlessPlan.begin (fileWith "first")).1 = .running d ∧
      (d.run [.reread (fileWith "second"), .reread (.error (.os .noEntry)), .reread (fileWith ""),
        .reread (.ok [])]).bridge.session.token = "second" := by
  have hruns : (match (tokenlessPlan.begin (fileWith "first")).1 with
      | .running _ => true
      | .ended _ => false) = true := by
    decide +kernel
  obtain ⟨d, hstart⟩ : ∃ d, (tokenlessPlan.begin (fileWith "first")).1 = .running d := by
    split at hruns
    · next d hstart => exact ⟨d, hstart⟩
    · cases hruns
  refine ⟨d, hstart, ?_⟩
  have htoken := (token_is_current hstart [.reread (fileWith "second"),
    .reread (.error (.os .noEntry)), .reread (fileWith ""), .reread (.ok [])]).1 rfl
  rw [htoken]
  decide +kernel

end Daemon

end AlarmBridge
