import NexusPanel.Foundation.Tally
import NexusPanel.Joint.PowerState
import NexusPanel.Panel.ConsolePage
import NexusPanel.Panel.GatewayAccess

/-!
# What the console of the browser shows

The gateway polls Wings for the console as it does for the statistics, and sends the lines of
`output` in the answer to the room of the server. The answer of `getServerStatus` has no such
field. So what a container prints does not come this way, and it is the only way to the console
page: what the terminal shows is what the gateway makes of the commands it has forwarded for the
same client.

A command is counted from the event it arrives with. It is under way as long as its handler waits
for the database or for Wings, and every handler has one of these waits behind it when it echoes.
-/

namespace Joint

open Panel Wings Transition

/-- A poll that is answered is answered by Wings. -/
def FromWings : GatewayStep → Prop
  | .resume (.statusAsked _ uuid) reply =>
    (∃ wings, reply = statusReply uuid wings) ∨ ∃ message, reply = .failed message
  | _ => True

/-- Everything a run of the gateway sends. -/
def outputsOf : GatewayState → List GatewayStep → List Output :=
  collect GatewayState.step GatewayState.outputs

/-- The console line that an output brings to the client, if it is in all rooms. -/
def lineFor (client : String) : Output → Option String
  | .client c _ (.consoleOutput line) => if c = client then some line else none
  | .room _ (.consoleOutput line) => some line
  | _ => none

/-- The command the client gives with a step. -/
def commandOf (client : String) : GatewayStep → Option String
  | .event (.sendCommand c command) => if c = client then some command else none
  | _ => none

/-- The echo of a command. -/
def echo (command : String) : String := s!"> {command}"

/-- The page's events are about this client: lines come from the gateway, in the order in which it
sends them, and no message brings a history. -/
structure Hears (client : String) (outputs : List Output) (events : List ConsolePage.Event) :
    Prop where
  lines : (ConsolePage.received events).Sublist (outputs.filterMap (lineFor client))
  histories : ∀ lines, .consoleHistory lines ∉ events

/-- The job carries out this command of the client. -/
def carries (client command : String) : Pending → Bool
  | .findForCommand c _ _ text | .commandSent c _ text => c = client && text = command
  | _ => false

theorem echo_injective {command command' : String} (h : echo command = echo command') :
    command = command' := by
  have hlist := congrArg String.toList h
  have htext : toString command = toString command' := by
    simpa [echo, String.toList_inj] using hlist
  exact htext

section Gateway

variable {verify : String → Option JwtPayload} {g g' : Gateway} (client command : String)
  {event : ClientEvent} {out : List Output} {jobs : List Pending}

/-- What an event brings at once is no console line, and takes up one command at most. -/
theorem receive_lines (h : g.receive verify event = some (g', out, jobs)) :
    (∀ o ∈ out, lineFor client o = none) ∧
      jobs.countP (carries client command) ≤
        if commandOf client (.event event) = some command then 1 else 0 := by
  cases event with
  | connection c cookie server =>
    obtain ⟨⟨g₁, out₁⟩, hconnection, heq⟩ := Option.map_eq_some_iff.mp h
    cases heq
    refine ⟨?_, Nat.zero_le _⟩
    unfold Gateway.handleConnection at hconnection
    dsimp only at hconnection
    split at hconnection
    next =>
      obtain ⟨_, -, heq⟩ := Option.map_eq_some_iff.mp hconnection
      cases heq
      simp
    next =>
      split at hconnection
      all_goals
        obtain ⟨_, -, heq⟩ := Option.map_eq_some_iff.mp hconnection
        cases heq
        simp [lineFor]
  | auth c token serverUuid =>
    obtain ⟨k, -, heq⟩ := Option.map_eq_some_iff.mp h
    cases heq
    refine ⟨?_, Nat.zero_le _⟩
    split <;> simp [lineFor]
  | sendCommand c text =>
    obtain ⟨k, hk, heq⟩ := Option.map_eq_some_iff.mp h
    cases heq
    refine ⟨List.forall_mem_nil _, ?_⟩
    have hid : k.id = c := by simpa using Table.findOne_sat hk
    rcases Gateway.handleSendCommand_cases k text with hnone | ⟨userId, uuid, -, -, hjob⟩
    · rw [hnone]
      exact Nat.zero_le _
    · rw [hjob, hid, List.countP_singleton]
      simp only [carries, commandOf, Bool.and_eq_true, decide_eq_true_eq]
      split <;> split <;> simp_all
  | sendPowerAction c action =>
    obtain ⟨k, -, heq⟩ := Option.map_eq_some_iff.mp h
    cases heq
    refine ⟨List.forall_mem_nil _, ?_⟩
    rcases Gateway.handleSendPowerAction_cases k action with hnone | ⟨userId, uuid, -, -, hjob⟩
    · rw [hnone]
      exact Nat.zero_le _
    · rw [hjob]
      exact Nat.zero_le _
  | disconnect c | subscribeConsole c | subscribeStats c =>
    obtain ⟨k, -, heq⟩ := Option.map_eq_some_iff.mp h
    cases heq
    exact ⟨List.forall_mem_nil _, Nat.zero_le _⟩

/-- An answer of Wings has no lines. -/
theorem output_statusReply {uuid : String} {wings : AppState} {status : WingsStatus}
    (h : statusReply uuid wings = .ok status) : status.output = [] := by
  unfold statusReply at h
  split at h
  next response _ =>
    cases h
    unfold statusOf
    split <;> rfl
  all_goals cases h

/-- What a job brings with its answer: the echo of its command, or no line; and it goes on with
that command, or with none. -/
theorem resume_lines (servers : Table Server) {job : Pending} {reply : Reply}
    (hwings : FromWings (.resume job reply)) :
    (∀ o ∈ (resume servers job reply).1, ∀ line, lineFor client o = some line →
      ∃ command, line = echo command) ∧
    (resume servers job reply).1.countP (fun o => lineFor client o == some (echo command)) +
      (resume servers job reply).2.countP (carries client command) ≤
        if carries client command job then 1 else 0 := by
  cases job with
  | findForCommand c userId uuid text =>
    cases reply with
    | failed message => simp [resume, lineFor]
    | ok status =>
      simp only [resume]
      split
      · simp [lineFor, carries]
      · simp [lineFor]
  | commandSent c uuid text =>
    cases reply with
    | failed message => simp [resume, lineFor]
    | ok status =>
      have hecho : resume servers (.commandSent c uuid text) (.ok status) =
          ([.client c (some uuid) (.consoleOutput (echo text))], []) := rfl
      rw [hecho]
      refine ⟨?_, ?_⟩
      · simp only [List.mem_singleton, forall_eq, lineFor]
        intro line hline
        split at hline <;> cases hline
        exact ⟨text, rfl⟩
      · by_cases hsame : c = client ∧ text = command
        · obtain ⟨rfl, rfl⟩ := hsame
          simp [carries, lineFor]
        · have hother : lineFor client (.client c (some uuid) (.consoleOutput (echo text))) ≠
              some (echo command) := by
            intro heq
            simp only [lineFor] at heq
            split at heq
            next hc => exact hsame ⟨hc, echo_injective (Option.some.inj heq)⟩
            next => cases heq
          simp [hother]
  | findForPower c userId uuid action =>
    cases reply with
    | failed message => simp [resume, lineFor]
    | ok status =>
      simp only [resume]
      split
      · simp [lineFor, carries]
      · simp [lineFor]
  | powerSent c uuid action =>
    cases reply <;> simp [resume, lineFor]
  | findForPoll poll uuid =>
    cases reply with
    | failed message => simp [resume]
    | ok status =>
      simp only [resume]
      split <;> simp [carries]
  | statusAsked poll uuid =>
    cases reply with
    | failed message => simp [resume]
    | ok status =>
      have hnone : status.output = [] := by
        rcases hwings with ⟨wings, heq⟩ | ⟨message, heq⟩
        · exact output_statusReply heq.symm
        · cases heq
      cases poll with
      | stats =>
        cases hstate : status.state <;> simp [resume, pollMessages, hstate, lineFor]
      | console => simp [resume, pollMessages, hnone]

end Gateway

section Runs

variable {client : String} {labels : List GatewayStep} {s s' : GatewayState}

/-- A line for the client is the echo of a command. -/
theorem line_of_step {l : GatewayStep} (hwings : FromWings l) :
    ∀ o ∈ s.outputs l, ∀ line, lineFor client o = some line → ∃ command, line = echo command := by
  intro o ho line hline
  unfold GatewayState.outputs at ho
  split at ho
  next s' out hexec =>
    cases l with
    | event event =>
      simp only [GatewayState.exec] at hexec
      split at hexec
      next =>
        obtain ⟨⟨g, out', jobs⟩, hreceive, heq⟩ := Option.map_eq_some_iff.mp hexec
        cases heq
        rw [(receive_lines client "" hreceive).1 o ho] at hline
        cases hline
      next => cases hexec
    | poll poll | environment env =>
      cases hexec
      cases ho
    | resume job reply =>
      simp only [GatewayState.exec] at hexec
      split at hexec
      next =>
        cases hexec
        exact (resume_lines client "" s.env.servers hwings).1 o ho line hline
      next => cases hexec
  next => cases ho

/-- What is echoed was under way, or comes in. -/
theorem echoes_step {l : GatewayStep} (command : String) (hwings : FromWings l)
    (h : s.step l = some s') :
    (s.outputs l).countP (fun o => lineFor client o == some (echo command)) +
      s'.pending.countP (carries client command) ≤
        s.pending.countP (carries client command) +
          if commandOf client l == some command then 1 else 0 := by
  obtain ⟨⟨s₁, out⟩, hexec, rfl⟩ := Option.map_eq_some_iff.mp h
  have hout : s.outputs l = out := by rw [GatewayState.outputs, hexec]
  rw [hout]
  cases l with
  | event event =>
    simp only [GatewayState.exec] at hexec
    split at hexec
    next =>
      obtain ⟨⟨g, out', jobs⟩, hreceive, heq⟩ := Option.map_eq_some_iff.mp hexec
      cases heq
      obtain ⟨hlines, hjobs⟩ := receive_lines client command hreceive
      have hnone : out'.countP (fun o => lineFor client o == some (echo command)) = 0 := by
        refine List.countP_eq_zero.mpr fun o ho => ?_
        rw [hlines o ho]
        simp
      rw [hnone, List.countP_append]
      simp only [beq_iff_eq]
      omega
    next => cases hexec
  | poll poll =>
    cases hexec
    have hnone : ((s.gateway.getSubscribedServerUuids poll).map (Pending.findForPoll poll)).countP
        (carries client command) = 0 := by
      refine List.countP_eq_zero.mpr fun job hjob => ?_
      obtain ⟨uuid, -, rfl⟩ := List.mem_map.mp hjob
      exact Bool.false_ne_true
    simp [List.countP_append, hnone]
  | environment env =>
    cases hexec
    simp
  | resume job reply =>
    simp only [GatewayState.exec] at hexec
    split at hexec
    next hjob =>
      cases hexec
      have hstep := (resume_lines client command s.env.servers hwings).2
      have herase := countP_erase_add (q := carries client command) hjob
      rw [List.countP_append]
      omega
    next => cases hexec

/-- For every run of the gateway in which polls are answered by Wings, and every page that gets its
lines from it: every line on the terminal is the echo of a command that this client has given, and
none is there more often than its command was given. -/
theorem console_shows_echoes (env : Environment) (labels : List GatewayStep) (s : GatewayState)
    (hrun : run GatewayState.step (.initial env) labels = some s)
    (hwings : ∀ l ∈ labels, FromWings l) (client : String) (events : List ConsolePage.Event)
    (page : ConsolePage) (hhears : Hears client (outputsOf (.initial env) labels) events)
    (hpage : run ConsolePage.step .fresh events = some page) :
    (∀ line ∈ page.screen, ∃ command, line = echo command ∧
      command ∈ labels.filterMap (commandOf client)) ∧
    ∀ command, page.screen.count (echo command) ≤
      (labels.filterMap (commandOf client)).count command := by
  have hlines := (ConsolePage.screen_sublist hpage hhears.histories).trans hhears.lines
  have halong : Along GatewayState.step (fun _ l => FromWings l) (.initial env) labels :=
    along_of_forall fun l hl _ => hwings l hl
  have hcount (command : String) : page.screen.count (echo command) ≤
      (labels.filterMap (commandOf client)).count command := by
    have htotal := countP_collect_le (n := 1) (p := fun l => commandOf client l == some command)
      (w := fun s => s.pending.countP (carries client command))
      (fun _ _ _ hl hstep => echoes_step command hl hstep) halong hrun
    rw [List.count_filterMap]
    calc page.screen.count (echo command)
      _ ≤ ((outputsOf (.initial env) labels).filterMap (lineFor client)).count (echo command) :=
        hlines.count_le _
      _ ≤ labels.countP fun l => commandOf client l == some command := by
        rw [List.count_filterMap]
        have hnone : (GatewayState.initial env).pending.countP (carries client command) = 0 := rfl
        rw [hnone, Nat.zero_add, Nat.one_mul] at htotal
        exact (Nat.le_add_right _ _).trans htotal
  refine ⟨fun line hline => ?_, hcount⟩
  obtain ⟨o, ho, hfor⟩ := List.mem_filterMap.mp (hlines.subset hline)
  obtain ⟨command, rfl⟩ := forall_mem_collect (P := fun o => ∀ line, lineFor client o = some line →
    ∃ command, line = echo command) (fun _ _ hl => line_of_step hl) halong hrun o ho line hfor
  refine ⟨command, rfl, List.count_pos_iff.mp ?_⟩
  exact (List.count_pos_iff.mpr hline).trans_le (hcount command)

end Runs

/-! ## A command beside a container that runs -/

/-- A command of the owner, and a poll for the console. -/
def consoleRun : List GatewayStep :=
  commandRun "owner" ++
    [.poll .console, .resume (.commandSent "c" "s" "op me") (.ok ⟨none, []⟩),
     .resume (.findForPoll .console "s") (.ok ⟨none, []⟩),
     .resume (.statusAsked .console "s") (statusReply "s" runningDaemon)]

/-- What the browser makes of it. -/
def consoleEvents : List ConsolePage.Event :=
  [.connect, .message (.consoleOutput "> op me"), .render]

theorem command_on_screen : ∃ page, run ConsolePage.step .fresh consoleEvents = some page ∧
    page.screen = ["> op me"] ∧
    ∀ line ∈ page.screen, ∃ command, line = echo command ∧
      command ∈ consoleRun.filterMap (commandOf "c") := by
  have hwings : ∀ l ∈ consoleRun, FromWings l := by
    simp only [consoleRun, commandRun, List.cons_append, List.nil_append, List.forall_mem_cons]
    exact ⟨trivial, trivial, trivial, trivial, trivial, trivial, .inl ⟨runningDaemon, rfl⟩,
      List.forall_mem_nil _⟩
  have hhears : Hears "c" (outputsOf (.initial (environmentOf "owner")) consoleRun) consoleEvents := by
    refine ⟨?_, by simp [consoleEvents]⟩
    have hlines : (outputsOf (.initial (environmentOf "owner")) consoleRun).filterMap
        (lineFor "c") = ["> op me"] := by decide +kernel
    rw [hlines]
    exact List.Sublist.refl _
  exact ⟨_, rfl, rfl,
    (console_shows_echoes (environmentOf "owner") consoleRun _ rfl hwings "c" consoleEvents _
      hhears rfl).1⟩

end Joint
