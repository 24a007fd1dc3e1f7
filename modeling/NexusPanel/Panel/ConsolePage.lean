import NexusPanel.Foundation.BoundedBuffer
import NexusPanel.Foundation.Transition
import NexusPanel.Panel.ServerWebSocket

/-!
# The console page

`useServerWebSocket` keeps the last 2000 lines of the console and the connection; `Terminal` writes
what has come since it last looked, and remembers how many lines it has written. The socket does
not reconnect by itself: the hook does, after a delay that doubles with each attempt.

Neither works for long. The count of the terminal is one into the lines that are kept, which are
never more than 2000 (`terminal_run`). And only a disconnect leads to another attempt, so one that
fails without it is the last (`reconnection_run`).

In what order the socket's events come is the library's; no order is assumed here. When the page goes
to another server, the hook disconnects the old socket, whose handlers stay and share the state of the
page, and makes a new one. So the events are those of all sockets of the page.
-/

namespace Panel

open Transition BoundedBuffer

/-! ## The page -/

def maxLines : Nat := 2000

inductive ConnectionStatus
  | connecting
  | connected
  | disconnected
  | error
deriving DecidableEq, Repr

/-- What the hook and the terminal hold of a server. `sockets` have been made so far, each with
`reconnection: false`, so that it stays as it is until it is told to connect; `delays` are those of
all timers that were set to tell one so, and `expired` of them have run out. `screen` is all that the
terminal has been given. -/
structure ConsolePage where
  sockets : Nat
  retries : Nat
  delays : List Nat
  expired : Nat
  connectionStatus : ConnectionStatus
  powerState : PowerState
  consoleLines : List String
  written : Nat
  screen : List String
deriving DecidableEq, Repr

namespace ConsolePage

/-- The page as it is mounted. -/
def fresh : ConsolePage := ⟨1, 0, [], 0, .connecting, .offline, [], 0, []⟩

/-- How often a socket was told to connect; a new one does so at once. -/
def attempts (page : ConsolePage) : Nat := page.sockets + page.expired

/-- What comes from outside, and the effect of the terminal, which runs after a rendering. React may
put several messages into one rendering. -/
inductive Event
  | connect
  | message (message : ServerMessage)
  | consoleHistory (lines : List String)
  | disconnect
  | connectError
  | timeout
  | changeServer
  | render
deriving DecidableEq, Repr

/-- `setConsoleLines` of one line more. -/
def appendLine (lines : List String) (line : String) : List String :=
  let next := lines ++ [line]
  if maxLines < next.length then next.rtake maxLines else next

def onConsole (page : ConsolePage) : ServerMessage → ConsolePage
  | .consoleOutput line => { page with consoleLines := appendLine page.consoleLines line }
  | message => { page with powerState := onMessage page.powerState message }

/-- The second effect of `Terminal`. -/
def writeNewLines (page : ConsolePage) : ConsolePage :=
  let newLines := page.consoleLines.drop page.written
  if newLines = [] then page
  else { page with screen := page.screen ++ newLines, written := page.consoleLines.length }

/-- An event, where a timer can run out if one is left. -/
def step (page : ConsolePage) : Event → Option ConsolePage
  | .connect => some { page with connectionStatus := .connected, retries := 0 }
  | .message message => some (page.onConsole message)
  | .consoleHistory lines => some { page with consoleLines := lines.rtake maxLines }
  | .disconnect =>
    some { page with
      connectionStatus := .disconnected
      powerState := .offline
      retries := page.retries + 1
      delays := page.delays ++ [min (1000 * 2 ^ page.retries) 30000] }
  | .connectError => some { page with connectionStatus := .error }
  | .timeout =>
    if page.expired < page.delays.length then some { page with expired := page.expired + 1 } else none
  | .changeServer => some { page with sockets := page.sockets + 1 }
  | .render => some page.writeNewLines

/-- The line that comes with an event. -/
def Event.line? : Event → Option String
  | .message (.consoleOutput line) => some line
  | _ => none

/-- The lines that the server has sent. -/
def received (events : List Event) : List String := events.filterMap Event.line?

/-! ## Connections -/

section Connections

variable {page page' : ConsolePage} {event : Event} {past events : List Event}

/-- How often a connection has broken, or an attempt, since one was made. -/
def breaks (events : List Event) : Nat :=
  (events.reverse.takeWhile (· ≠ .connect)).count .disconnect

@[simp] theorem breaks_connect : breaks (past ++ [.connect]) = 0 := by
  simp [breaks]

theorem breaks_snoc (h : event ≠ .connect) :
    breaks (past ++ [event]) = breaks past + if event = .disconnect then 1 else 0 := by
  unfold breaks
  rw [List.reverse_append, List.reverse_singleton, List.singleton_append,
    List.takeWhile_cons_of_pos (by simpa using h), List.count_cons]
  simp only [beq_iff_eq]

/-- The page is where these events have taken it. -/
structure Connects (past : List Event) (page : ConsolePage) : Prop where
  retries : page.retries = breaks past
  count : page.delays.length = past.count .disconnect
  delays : ∀ before after, past = before ++ .disconnect :: after →
    page.delays[before.count .disconnect]? = some (min (1000 * 2 ^ breaks before) 30000)
  sockets : page.sockets = 1 + past.count .changeServer
  expired : page.expired ≤ page.delays.length
  status : ∀ before after, past = before ++ .connectError :: after → .connect ∉ after →
    .disconnect ∉ after → page.connectionStatus = .error

/-- A split before an event of a longer past is one of the past, or the last event is it. -/
theorem snoc_eq_append_cons {past before after : List Event} {event e : Event}
    (h : past ++ [event] = before ++ e :: after) :
    (past = before ∧ event = e ∧ after = []) ∨
      ∃ rest, past = before ++ e :: rest ∧ after = rest ++ [event] := by
  rcases List.eq_nil_or_concat' after with rfl | ⟨rest, last, rfl⟩
  · obtain ⟨hpast, hlast⟩ := List.append_inj' h rfl
    exact .inl ⟨hpast, List.singleton_inj.mp hlast, rfl⟩
  · rw [← List.cons_append, ← List.append_assoc] at h
    obtain ⟨hpast, hlast⟩ := List.append_inj' h rfl
    exact .inr ⟨rest, hpast, by rw [List.singleton_inj.mp hlast]⟩

/-- The last event is behind every other one. -/
theorem mem_of_snoc_eq {past before after : List Event} {event e : Event} (hne : event ≠ e)
    (h : past ++ [event] = before ++ e :: after) : event ∈ after := by
  rcases snoc_eq_append_cons h with ⟨-, heq, -⟩ | ⟨rest, -, rfl⟩
  · exact absurd heq hne
  · exact List.mem_append_right _ (List.mem_singleton_self event)

/-- An event that is no disconnect sets no delay. -/
theorem Connects.delays_snoc (h : Connects past page) (hevent : event ≠ .disconnect)
    {before after : List Event} (hsplit : past ++ [event] = before ++ .disconnect :: after) :
    page.delays[before.count .disconnect]? = some (min (1000 * 2 ^ breaks before) 30000) := by
  rcases snoc_eq_append_cons hsplit with ⟨-, heq, -⟩ | ⟨rest, hpast, -⟩
  · exact absurd heq hevent
  · exact h.delays before rest hpast

/-- An event that is none of the socket's leaves the delays and the status as they are. -/
theorem Connects.other (h : Connects past page) (hconnect : event ≠ .connect)
    (hdisconnect : event ≠ .disconnect) (herror : event ≠ .connectError)
    (hretries : page'.retries = page.retries) (hdelays : page'.delays = page.delays)
    (hsockets : page'.sockets = page.sockets + if event = .changeServer then 1 else 0)
    (hexpired : page'.expired ≤ page'.delays.length)
    (hstatus : page'.connectionStatus = page.connectionStatus) :
    Connects (past ++ [event]) page' where
  retries := by rw [hretries, breaks_snoc hconnect, if_neg hdisconnect, h.retries]; rfl
  count := by
    rw [hdelays, List.count_append, h.count, List.count_singleton]
    simp [hdisconnect]
  delays := by
    intro before after hsplit
    rw [hdelays]
    exact h.delays_snoc hdisconnect hsplit
  sockets := by
    rw [hsockets, List.count_append, h.sockets, List.count_singleton]
    simp only [beq_iff_eq]
    omega
  expired := hexpired
  status := by
    intro before after hsplit hafter hafter'
    rw [hstatus]
    rcases snoc_eq_append_cons hsplit with ⟨-, heq, -⟩ | ⟨rest, hpast, rfl⟩
    · exact absurd heq herror
    · exact h.status before rest hpast (fun hmem => hafter (List.mem_append_left _ hmem))
        fun hmem => hafter' (List.mem_append_left _ hmem)

theorem Connects.step (hpage : Connects past page) (h : page.step event = some page') :
    Connects (past ++ [event]) page' := by
  have hexpired := hpage.expired
  cases event with
  | connect =>
    cases h
    refine ⟨breaks_connect.symm, ?_, ?_, ?_, hexpired, ?_⟩
    · simpa using hpage.count
    · exact fun before after hsplit => hpage.delays_snoc (by simp) hsplit
    · simpa using hpage.sockets
    · exact fun before after hsplit hafter => absurd (mem_of_snoc_eq (by simp) hsplit) hafter
  | disconnect =>
    cases h
    refine ⟨?_, ?_, ?_, ?_, ?_, ?_⟩
    · rw [breaks_snoc (by simp), if_pos rfl, ← hpage.retries]
    · rw [List.length_append, List.count_append, hpage.count]
      rfl
    · intro before after hsplit
      rcases snoc_eq_append_cons hsplit with ⟨rfl, -, -⟩ | ⟨rest, rfl, -⟩
      · rw [← hpage.count, List.getElem?_concat_length, hpage.retries]
      · have hdelay := hpage.delays before rest rfl
        rw [List.getElem?_append_left (List.getElem?_eq_some_iff.mp hdelay).1]
        exact hdelay
    · simpa using hpage.sockets
    · rw [List.length_append]
      exact hexpired.trans (Nat.le_add_right _ _)
    · exact fun before after hsplit _ hafter => absurd (mem_of_snoc_eq (by simp) hsplit) hafter
  | connectError =>
    cases h
    refine ⟨?_, ?_, ?_, ?_, hexpired, fun _ _ _ _ _ => rfl⟩
    · rw [breaks_snoc (by simp), if_neg (by simp), Nat.add_zero]
      exact hpage.retries
    · simpa using hpage.count
    · exact fun before after hsplit => hpage.delays_snoc (by simp) hsplit
    · simpa using hpage.sockets
  | timeout =>
    simp only [ConsolePage.step] at h
    split at h
    next hleft =>
      cases h
      exact hpage.other (by simp) (by simp) (by simp) rfl rfl rfl hleft rfl
    next => cases h
  | message message =>
    cases h
    cases message <;> exact hpage.other (by simp) (by simp) (by simp) rfl rfl rfl hexpired rfl
  | consoleHistory lines | changeServer =>
    cases h
    exact hpage.other (by simp) (by simp) (by simp) rfl rfl rfl hexpired rfl
  | render =>
    cases h
    unfold ConsolePage.writeNewLines
    dsimp only
    split <;> exact hpage.other (by simp) (by simp) (by simp) rfl rfl rfl hexpired rfl

theorem connects_run (hpage : Connects past page) (h : run step page events = some page') :
    Connects (past ++ events) page' := by
  induction events generalizing page past with
  | nil =>
    cases h
    rw [List.append_nil]
    exact hpage
  | cons event events ih =>
    obtain ⟨page₁, hstep, hrest⟩ := run_cons_eq_some.mp h
    have hpast := ih (hpage.step hstep) hrest
    rwa [List.append_assoc] at hpast

theorem connects_fresh : Connects [] fresh := by
  constructor <;> simp [fresh, breaks]

/-- In whatever order the events come, the delays are set by the disconnects, one by each: a second,
doubled for each disconnect since the last connection, and half a minute at most. No other attempt is
made but those of new sockets, so one that fails without a disconnect is followed by none, and shows
as an error until a connection is made or breaks. -/
theorem reconnection_run {events : List Event} (h : run step fresh events = some page) :
    page.delays.length = events.count .disconnect ∧
      (∀ before after, events = before ++ .disconnect :: after →
        page.delays[before.count .disconnect]? = some (min (1000 * 2 ^ breaks before) 30000)) ∧
      page.attempts ≤ 1 + events.count .changeServer + events.count .disconnect ∧
      ∀ before after, events = before ++ .connectError :: after → .connect ∉ after →
        .disconnect ∉ after → page.connectionStatus = .error := by
  have hpage := connects_run connects_fresh h
  rw [List.nil_append] at hpage
  refine ⟨hpage.count, hpage.delays, ?_, hpage.status⟩
  unfold attempts
  rw [hpage.sockets, ← hpage.count]
  exact Nat.add_le_add_left hpage.expired _

/-- A connection breaks, the next one is cut off before it is made, and the panel is not back after
two more seconds. -/
def awayEvents : List Event :=
  [.connect, .disconnect, .timeout, .disconnect, .timeout, .connectError]

theorem panel_away : ∃ page, run step fresh awayEvents = some page ∧ page.delays[1]? = some 2000 ∧
    page.attempts ≤ 3 ∧ page.connectionStatus = .error := by
  refine ⟨_, rfl, ?_⟩
  have hrun := @reconnection_run _ awayEvents rfl
  obtain ⟨-, hdelays, hattempts, hstatus⟩ := hrun
  exact ⟨hdelays [.connect, .disconnect, .timeout] [.timeout, .connectError] rfl, hattempts,
    hstatus [.connect, .disconnect, .timeout, .disconnect, .timeout] [] rfl (by simp) (by simp)⟩

end Connections

/-! ## The terminal -/

section Terminal

variable {page page' : ConsolePage} {event : Event} {events later : List Event}
  {arrived : List String}

/-- The terminal has been given as many lines as it counts, which are never more than are kept. -/
structure Counted (page : ConsolePage) : Prop where
  kept : page.consoleLines.length ≤ maxLines
  count : page.screen.length = page.written
  written : page.written ≤ maxLines

/-- The console has the last lines that have come. Until lines are dropped, the terminal has the
first ones of them; and it is never given a line that stands before its count for a second time. -/
structure Shows (page : ConsolePage) (arrived : List String) : Prop where
  lines : page.consoleLines = arrived.rtake maxLines
  written : page.written ≤ page.consoleLines.length
  screen : arrived.length ≤ maxLines → page.screen = arrived.take page.written
  drawn : page.screen.Sublist
    (arrived.take (arrived.length - page.consoleLines.length + page.written))

theorem appendLine_eq (lines : List String) (line : String) :
    appendLine lines line = (lines ++ [line]).rtake maxLines := by
  unfold appendLine
  dsimp only
  split
  next => rfl
  next hroom => exact (rtake_of_le (Nat.le_of_not_lt hroom)).symm

theorem Counted.writeNewLines (hpage : Counted page) : Counted page.writeNewLines := by
  by_cases hnew : page.consoleLines.drop page.written = []
  · have hsame : page.writeNewLines = page := if_pos hnew
    rw [hsame]
    exact hpage
  · have hwritten : page.writeNewLines = { page with
        screen := page.screen ++ page.consoleLines.drop page.written
        written := page.consoleLines.length } := if_neg hnew
    rw [List.drop_eq_nil_iff] at hnew
    have hcount := hpage.count
    rw [hwritten]
    refine ⟨hpage.kept, ?_, hpage.kept⟩
    change (page.screen ++ page.consoleLines.drop page.written).length = page.consoleLines.length
    rw [List.length_append, List.length_drop]
    omega

theorem Counted.step (hpage : Counted page) (h : page.step event = some page') : Counted page' := by
  have hkept := hpage.kept
  cases event with
  | render =>
    cases h
    exact hpage.writeNewLines
  | message message =>
    cases h
    cases message with
    | consoleOutput line =>
      refine ⟨?_, hpage.count, hpage.written⟩
      change (appendLine page.consoleLines line).length ≤ maxLines
      rw [appendLine_eq]
      exact length_rtake_le ..
    | _ => exact ⟨hkept, hpage.count, hpage.written⟩
  | consoleHistory lines =>
    cases h
    refine ⟨?_, hpage.count, hpage.written⟩
    dsimp only
    exact length_rtake_le ..
  | timeout =>
    simp only [ConsolePage.step] at h
    split at h <;> cases h
    exact ⟨hkept, hpage.count, hpage.written⟩
  | _ =>
    cases h
    exact ⟨hkept, hpage.count, hpage.written⟩

/-- What the terminal has been given stays. -/
theorem screen_step (h : page.step event = some page') : page.screen <+: page'.screen := by
  cases event with
  | render =>
    cases h
    unfold ConsolePage.writeNewLines
    dsimp only
    split
    · exact List.prefix_rfl
    · exact List.prefix_append ..
  | message message =>
    cases h
    cases message <;> exact List.prefix_rfl
  | timeout =>
    simp only [ConsolePage.step] at h
    split at h <;> cases h
    exact List.prefix_rfl
  | _ =>
    cases h
    exact List.prefix_rfl

theorem Shows.writeNewLines (hpage : Shows page arrived) : Shows page.writeNewLines arrived := by
  by_cases hnew : page.consoleLines.drop page.written = []
  · have hsame : page.writeNewLines = page := if_pos hnew
    rw [hsame]
    exact hpage
  · have hwritten : page.writeNewLines = { page with
        screen := page.screen ++ page.consoleLines.drop page.written
        written := page.consoleLines.length } := if_neg hnew
    rw [hwritten]
    refine ⟨hpage.lines, Nat.le_refl _, fun hshort => ?_, ?_⟩
    · change page.screen ++ page.consoleLines.drop page.written =
        arrived.take page.consoleLines.length
      have hlines := hpage.lines
      rw [rtake_of_le hshort] at hlines
      rw [hpage.screen hshort, hlines, List.take_append_drop, List.take_length]
    · change (page.screen ++ page.consoleLines.drop page.written).Sublist
        (arrived.take (arrived.length - page.consoleLines.length + page.consoleLines.length))
      have hnewLines : page.consoleLines.drop page.written =
          arrived.drop (arrived.length - page.consoleLines.length + page.written) := by
        have hlast :
            page.consoleLines = arrived.drop (arrived.length - page.consoleLines.length) := by
          rw [hpage.lines]
          exact rtake_eq_drop_length ..
        rw [← List.drop_drop, ← hlast]
      have hall : arrived.take (arrived.length - page.consoleLines.length +
          page.consoleLines.length) = arrived := List.take_of_length_le (by omega)
      rw [hnewLines, hall]
      have hbefore := hpage.drawn.append_right
        (arrived.drop (arrived.length - page.consoleLines.length + page.written))
      rwa [List.take_append_drop] at hbefore

theorem Shows.step (hpage : Shows page arrived) (hevent : ∀ lines, event ≠ .consoleHistory lines)
    (h : page.step event = some page') : Shows page' (arrived ++ event.line?.toList) := by
  cases event with
  | render =>
    cases h
    change Shows page.writeNewLines (arrived ++ [])
    rw [List.append_nil]
    exact hpage.writeNewLines
  | message message =>
    cases h
    cases message with
    | consoleOutput line =>
      have hlines : appendLine page.consoleLines line = (arrived ++ [line]).rtake maxLines := by
        rw [hpage.lines, appendLine_eq, rtake_rtake_concat]
      have hwritten := hpage.written
      have hkept : page.consoleLines.length = min maxLines arrived.length := by
        rw [hpage.lines, length_rtake]
      have hkept' : (appendLine page.consoleLines line).length =
          min maxLines (arrived.length + 1) := by
        rw [hlines, length_rtake, List.length_append, List.length_singleton]
      refine ⟨hlines, ?_, fun hshort => ?_, ?_⟩
      · change page.written ≤ (appendLine page.consoleLines line).length
        omega
      · rw [Event.line?, Option.toList_some, List.length_append] at hshort
        change page.screen = (arrived ++ [line]).take page.written
        rw [hpage.screen (by omega), List.take_append_of_le_length (by omega)]
      · change page.screen.Sublist ((arrived ++ [line]).take ((arrived ++ [line]).length -
          (appendLine page.consoleLines line).length + page.written))
        rw [hkept', List.length_append, List.length_singleton]
        have hdrawn := hpage.drawn
        rw [hkept] at hdrawn hwritten
        have hgrown : arrived.take (arrived.length - min maxLines arrived.length + page.written) =
            (arrived ++ [line]).take
              (arrived.length - min maxLines arrived.length + page.written) :=
          (List.take_append_of_le_length (by omega)).symm
        rw [hgrown] at hdrawn
        exact hdrawn.trans (List.take_sublist_take_left (by omega))
    | _ =>
      change Shows _ (arrived ++ [])
      rw [List.append_nil]
      exact ⟨hpage.lines, hpage.written, hpage.screen, hpage.drawn⟩
  | consoleHistory lines => exact absurd rfl (hevent lines)
  | timeout =>
    simp only [ConsolePage.step] at h
    split at h <;> cases h
    change Shows _ (arrived ++ [])
    rw [List.append_nil]
    exact ⟨hpage.lines, hpage.written, hpage.screen, hpage.drawn⟩
  | _ =>
    cases h
    change Shows _ (arrived ++ [])
    rw [List.append_nil]
    exact ⟨hpage.lines, hpage.written, hpage.screen, hpage.drawn⟩

theorem shows_run (hevents : ∀ lines, .consoleHistory lines ∉ events) (hpage : Shows page arrived)
    (h : run step page events = some page') : Shows page' (arrived ++ received events) := by
  induction events generalizing page arrived with
  | nil =>
    cases h
    rw [received, List.filterMap_nil, List.append_nil]
    exact hpage
  | cons event events ih =>
    obtain ⟨page₁, hstep, hrest⟩ := run_cons_eq_some.mp h
    have hfirst : ∀ lines, event ≠ .consoleHistory lines := by
      rintro lines rfl
      exact hevents lines List.mem_cons_self
    have hcons : received (event :: events) = event.line?.toList ++ received events := by
      unfold received
      cases hline : event.line? with
      | none => rw [List.filterMap_cons_none hline]; rfl
      | some line => rw [List.filterMap_cons_some hline]; rfl
    rw [hcons, ← List.append_assoc]
    exact ih (fun lines hmem => hevents lines (List.mem_cons_of_mem _ hmem))
      (hpage.step hfirst hstep) hrest

theorem shows_fresh : Shows fresh [] :=
  ⟨(List.rtake_nil ..).symm, Nat.le_refl _, fun _ => rfl, List.Sublist.refl _⟩

/-- The terminal is given no line twice and none out of order. -/
theorem screen_sublist (h : run step fresh events = some page)
    (hevents : ∀ lines, .consoleHistory lines ∉ events) :
    page.screen.Sublist (received events) := by
  have hshows := shows_run hevents shows_fresh h
  rw [List.nil_append] at hshows
  exact hshows.drawn.trans (List.take_sublist ..)

/-- After a rendering everything that is kept has been counted. -/
theorem Shows.all_written (hpage : Shows page arrived) :
    page.writeNewLines.written = page.consoleLines.length := by
  by_cases hnew : page.consoleLines.drop page.written = []
  · have hsame : page.writeNewLines = page := if_pos hnew
    rw [hsame]
    exact Nat.le_antisymm hpage.written (List.drop_eq_nil_iff.mp hnew)
  · have hwritten : page.writeNewLines = { page with
        screen := page.screen ++ page.consoleLines.drop page.written
        written := page.consoleLines.length } := if_neg hnew
    rw [hwritten]

/-- The terminal is given 2000 lines at most, and when it has been given them, it is given no more,
whatever comes. So, where no `console_history` arrives, it has what the server has sent, after a
rendering, exactly when that is no more than 2000 lines. -/
theorem terminal_run (h : run step fresh events = some page) :
    page.screen.length ≤ maxLines ∧
      (page.screen.length = maxLines →
        ∀ later page', run step page later = some page' → page'.screen = page.screen) ∧
      ((∀ lines, .consoleHistory lines ∉ events) →
        (page.writeNewLines.screen = received events ↔ (received events).length ≤ maxLines)) := by
  have hfresh : Counted fresh := ⟨Nat.zero_le _, rfl, Nat.zero_le _⟩
  have hcounted {start page : ConsolePage} {events : List Event} (hstart : Counted start)
      (h : run step start events = some page) : Counted page :=
    run_preserves (fun _ _ _ hpage => hpage.step) hstart h
  have hlength {page : ConsolePage} (hpage : Counted page) : page.screen.length ≤ maxLines := by
    rw [hpage.count]
    exact hpage.written
  have hpage := hcounted hfresh h
  refine ⟨hlength hpage, fun hfull later page' hlater => ?_, fun hevents => ?_⟩
  · have hgrown : page.screen <+: page'.screen :=
      run_preserves (I := fun p => page.screen <+: p.screen)
        (fun _ _ _ hp hstep => hp.trans (screen_step hstep)) List.prefix_rfl hlater
    refine (hgrown.eq_of_length_le ?_).symm
    rw [hfull]
    exact hlength (hcounted hpage hlater)
  · have hshows := shows_run hevents shows_fresh h
    rw [List.nil_append] at hshows
    constructor
    · intro heq
      rw [← heq]
      exact hlength hpage.writeNewLines
    · intro hshort
      have hlines := hshows.lines
      rw [rtake_of_le hshort] at hlines
      rw [hshows.writeNewLines.screen hshort, hshows.all_written, hlines, List.take_length]

/-- Lines that come before, between and behind renderings. -/
def shownEvents : List Event :=
  [.connect, .render, .message (.consoleOutput "Loading"), .message (.consoleOutput "Preparing"),
    .render, .message (.powerState "2"), .message (.consoleOutput "Done"), .render, .render]

/-- They are all shown, and each once. -/
theorem line_shown : ∃ page, run step fresh shownEvents = some page ∧
    page.writeNewLines.screen = ["Loading", "Preparing", "Done"] := by
  refine ⟨_, rfl, (((@terminal_run _ shownEvents rfl).2.2 ?_).mpr ?_).trans ?_⟩
  · simp [shownEvents]
  · decide
  · decide

end Terminal

end ConsolePage

end Panel
