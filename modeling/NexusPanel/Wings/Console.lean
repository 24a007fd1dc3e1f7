import NexusPanel.Foundation.BoundedBuffer
import NexusPanel.Foundation.Pool

/-!
# The console of one server, one turn at a time

The clients of a server's console share a buffer of 500 lines. A client that connects is first
sent what the buffer holds. Then it gets tasks of its own: one reads the container's log from
the beginning, pushes every line of the standard output and error onto the shared buffer and
hands it to a channel; another sends what comes out of the channel.

Lines of any other kind are passed over. A container with a terminal, as every game server has,
prints to the terminal, and the library makes another kind of its lines: from the log of such a
container no client is sent anything (`terminal_silent`).

A client is a task of a pool. The strands of its connection take turns in any order, with those
of other clients; the log grows from outside. The client may leave at any time, and its
connection finds out later.
-/

namespace Wings.Console

open Transition

/-! ## The log -/

/-- An item of the stream that bollard makes of a log, its message read as UTF-8 with
replacements. The streams of a container without a terminal come with headers that tell them
apart; what is printed to a terminal (`ContainerSpec.tty`) has no headers and comes as
`console`. -/
inductive LogOutput
  | stdErr (message : String)
  | stdOut (message : String)
  | stdIn (message : String)
  | console (message : String)
deriving DecidableEq

namespace LogOutput

def message : LogOutput → String
  | stdErr message | stdOut message | stdIn message | console message => message

/-- The items whose message is pushed and sent. -/
def forwarded : LogOutput → Bool
  | stdErr _ | stdOut _ => true
  | stdIn _ | console _ => false

end LogOutput

/-! ## The buffer -/

def defaultCapacity : Nat := 500

/-- `ConsoleBuffer`, which never holds more lines than its capacity. -/
structure ConsoleBuffer where
  lines : List String
  bounded : lines.length ≤ defaultCapacity

namespace ConsoleBuffer

def new : ConsoleBuffer := ⟨[], Nat.zero_le _⟩

/-- A full buffer loses its oldest line. -/
def push (b : ConsoleBuffer) (line : String) : ConsoleBuffer where
  lines := (if defaultCapacity ≤ b.lines.length then b.lines.drop 1 else b.lines) ++ [line]
  bounded := by
    have hbounded := b.bounded
    rw [List.length_append, List.length_singleton]
    split
    next hfull =>
      rw [List.length_drop]
      have : 0 < defaultCapacity := by decide
      omega
    next => omega

/-- A buffer that holds the end of a list holds the end of the longer list after a push. -/
theorem lines_push {b : ConsoleBuffer} {xs : List String} {line : String}
    (h : b.lines = xs.rtake defaultCapacity) :
    (b.push line).lines = (xs ++ [line]).rtake defaultCapacity := by
  simp only [push]
  rw [h]
  exact BoundedBuffer.ring_rtake (by decide) xs line

end ConsoleBuffer

/-! ## Turns -/

/-- Where a connection is. The log task has a position in the log and a line it has pushed and
not yet handed on; the channel is there until sending to the client has failed. -/
inductive Stage
  | arrived
  | replaying (pending : List String)
  | streaming (position : Nat) (text : Option String) (channel : Option (List String))
  | stopped
deriving DecidableEq

/-- A client, and the console lines it has been sent. -/
structure Client where
  connected : Bool
  received : List String
  stage : Stage
deriving DecidableEq

structure Store where
  log : List LogOutput
  buffer : ConsoleBuffer

/-- The lines of the log. -/
def Store.lines (s : Store) : List String := s.log.map LogOutput.message

theorem Store.length_lines (s : Store) : s.lines.length = s.log.length := List.length_map ..

/-- What takes a turn: the handler, the log task, the forwarding task, or the client, which
leaves. -/
inductive Strand
  | handler
  | log
  | forward
  | leave
deriving DecidableEq

/-- How many lines the channel holds. -/
def channelCapacity : Nat := 128

/-- The handler replays the buffer and starts the tasks. Then it waits for the client to leave,
and stops them. -/
def handlerTurn (s : Store) (c : Client) : Option Client :=
  match c.stage with
  | .arrived => some { c with stage := .replaying s.buffer.lines }
  | .replaying (line :: pending) =>
    if c.connected then
      some { c with received := c.received ++ [line], stage := .replaying pending }
    else none
  | .replaying [] => some { c with stage := .streaming 0 none (some []) }
  | .streaming _ _ _ | .stopped => if c.connected then some c else none

/-- The log task pushes the next line onto the buffer, and then hands it to the channel, unless
it is one that is passed over. When the channel is closed the task ends. -/
def logTurn (s : Store) (c : Client) : Store × Client :=
  match c.stage with
  | .streaming position none channel =>
    match s.log[position]? with
    | some (.stdOut text) | some (.stdErr text) => ({ s with buffer := s.buffer.push text },
        { c with stage := .streaming (position + 1) (some text) channel })
    | some _ => (s, { c with stage := .streaming (position + 1) none channel })
    | none => (s, c)
  | .streaming position (some text) (some channel) =>
    if channel.length < channelCapacity then
      (s, { c with stage := .streaming position none (some (channel ++ [text])) })
    else (s, c)
  | .streaming _ (some _) none => (s, { c with stage := .stopped })
  | _ => (s, c)

/-- The forwarding task sends a line; when that fails, it drops its end of the channel. -/
def forwardTurn (c : Client) : Client :=
  match c.stage with
  | .streaming position text (some (line :: channel)) =>
    if c.connected then
      { c with received := c.received ++ [line], stage := .streaming position text (some channel) }
    else { c with stage := .streaming position text none }
  | _ => c

def turn (s : Store) (strand : Strand) (c : Client) : Turn Store Unit Client :=
  match strand with
  | .handler => ⟨s, (), handlerTurn s c⟩
  | .log => ⟨(logTurn s c).1, (), some (logTurn s c).2⟩
  | .forward => ⟨s, (), some (forwardTurn c)⟩
  | .leave => ⟨s, (), some { c with connected := false }⟩

/-- The connections to the console of one server. From outside, the log gets a line. -/
def clients : Tasks Store Client Strand Unit LogOutput where
  turn := turn
  starts c := c == ⟨true, [], .arrived⟩
  outside s item := some { s with log := s.log ++ [item] }

abbrev State := Pool Store Client

abbrev Label := PoolLabel Client Strand LogOutput

/-- Nobody has connected yet. -/
def idle (log : List LogOutput) : State := ⟨⟨log, .new⟩, []⟩

/-! ## An exact history -/

/-- Nothing of the log is left to be sent. -/
def Client.caughtUp (lines : List String) (c : Client) : Bool :=
  c.stage == .streaming lines.length none (some [])

/-- How many turns a client still needs at most to have been sent the log as it is now. -/
def Client.left (s : Store) (c : Client) : Nat :=
  match c.stage with
  | .arrived => 3 * s.log.length + s.buffer.lines.length + 2
  | .replaying pending => 3 * s.log.length + pending.length + 1
  | .streaming position text channel =>
    3 * (s.log.length - position) + 2 * text.toList.length + (channel.getD []).length
  | .stopped => 0

/-- The buffer holds the end of what has been read of the log. Every connected client has been
sent the log line by line: a beginning of it, and all of it when nothing is left to do; and as
long as something is left, one of its strands can bring it nearer. -/
structure Exact (p : State) : Prop where
  buffer : ∃ k ≤ p.store.lines.length,
    p.store.buffer.lines = (p.store.lines.take k).rtake defaultCapacity
  received : ∀ c ∈ p.tasks, c.connected = true → c.received <+: p.store.lines
  complete : ∀ c ∈ p.tasks, c.connected = true → c.caughtUp p.store.lines = true →
    c.received = p.store.lines
  advances : ∀ c ∈ p.tasks, c.connected = true → c.caughtUp p.store.lines = false →
    ∃ strand next, (turn p.store strand c).next = some next ∧
      next.left (turn p.store strand c).store < c.left p.store

/-- A turn that takes what the buffer holds to replay it, or reads the first line of the log. -/
def Client.begins (c : Client) : Strand → Bool
  | .handler => c.stage == .arrived
  | .log =>
    match c.stage with
    | .streaming 0 none _ => true
    | _ => false
  | _ => false

/-- A client is replayed the buffer, or starts to read the log, only while the buffer is
empty. -/
def BeginsEmpty (p : State) : Label → Prop
  | .turn i strand => ∀ c ∈ p.tasks[i]?, c.begins strand = true → p.store.buffer.lines = []
  | _ => True

instance (p : State) : ∀ l, Decidable (BeginsEmpty p l)
  | .turn i _ => inferInstanceAs (Decidable (∀ c ∈ p.tasks[i]?, _ → _))
  | .start _ | .outside _ => inferInstanceAs (Decidable True)

/-- The item that the log task reads in a turn. -/
def Client.reads (s : Store) (c : Client) : Strand → Option LogOutput
  | .log =>
    match c.stage with
    | .streaming position none _ => s.log[position]?
    | _ => none
  | _ => none

/-- A log task reads no item that it passes over. -/
def ReadsForwarded (p : State) : Label → Prop
  | .turn i strand => ∀ c ∈ p.tasks[i]?, ∀ item ∈ c.reads p.store strand, item.forwarded = true
  | _ => True

instance (p : State) : ∀ l, Decidable (ReadsForwarded p l)
  | .turn i _ => inferInstanceAs (Decidable (∀ c ∈ p.tasks[i]?, ∀ item ∈ _, _))
  | .start _ | .outside _ => inferInstanceAs (Decidable True)

/-! ## What one turn does -/

/-- The client has been sent what its task has read, but for what is on the way. -/
def Client.Sent (log : List String) (c : Client) : Prop :=
  match c.stage with
  | .arrived => c.received = []
  | .replaying pending => pending = [] ∧ c.received = []
  | .streaming position text channel =>
    position ≤ log.length ∧ (c.connected = true → ∃ lines, channel = some lines ∧
      c.received ++ lines ++ text.toList = log.take position)
  | .stopped => c.connected = false

/-- How far the log task has read. -/
def Client.position (c : Client) : Nat :=
  match c.stage with
  | .streaming position _ _ => position
  | _ => 0

/-- One client at most has begun to read, and the buffer holds the end of what it has read. -/
structure OneReader (k : Nat) (s : Store) (tasks : List Client) : Prop where
  read : k ≤ s.lines.length
  buffer : s.buffer.lines = (s.lines.take k).rtake defaultCapacity
  sent : ∀ c ∈ tasks, c.Sent s.lines
  position : ∀ c ∈ tasks, c.position = 0 ∨ c.position = k
  alone : tasks.countP (fun c => c.position != 0) ≤ 1

section Turns

variable {k : Nat} {s : Store} {c c' : Client} {tasks rest : List Client} {line : String}
  {whole : List String}

/-- The log grows at its end. -/
theorem Client.Sent.grow (h : c.Sent whole) : c.Sent (whole ++ [line]) := by
  unfold Client.Sent at h ⊢
  split at h
  · exact h
  · exact h
  next position text channel _ =>
    obtain ⟨hposition, hsent⟩ := h
    refine ⟨?_, fun hconnected => ?_⟩
    · rw [List.length_append]
      omega
    · obtain ⟨lines, hchannel, hlines⟩ := hsent hconnected
      exact ⟨lines, hchannel, by rw [hlines, List.take_append_of_le_length hposition]⟩
  · exact h

/-- What has been sent is a beginning of the log. -/
theorem Client.Sent.beginning (h : c.Sent whole) (hconnected : c.connected = true) :
    c.received <+: whole := by
  unfold Client.Sent at h
  split at h
  · rw [h]
    exact List.nil_prefix
  · rw [h.2]
    exact List.nil_prefix
  next position text channel _ =>
    obtain ⟨lines, -, hlines⟩ := h.2 hconnected
    have hprefix : c.received <+: whole.take position := by
      rw [← hlines, List.append_assoc]
      exact List.prefix_append _ _
    exact hprefix.trans (List.take_prefix _ _)
  · rw [hconnected] at h
    cases h

theorem Client.Sent.complete (h : c.Sent whole) (hconnected : c.connected = true)
    (hcaught : c.caughtUp whole = true) : c.received = whole := by
  have hstage : c.stage = .streaming whole.length none (some []) := by
    simpa [Client.caughtUp] using hcaught
  rw [Client.Sent, hstage] at h
  obtain ⟨lines, hchannel, hlines⟩ := h.2 hconnected
  cases hchannel
  simpa using hlines

theorem Client.Sent.advances (h : c.Sent s.lines) (hconnected : c.connected = true)
    (hleft : c.caughtUp s.lines = false) : ∃ strand next, (turn s strand c).next = some next ∧
      next.left (turn s strand c).store < c.left s := by
  obtain ⟨connected, received, stage⟩ := c
  cases hconnected
  cases stage with
  | arrived =>
    refine ⟨.handler, _, rfl, ?_⟩
    simp [Client.left, turn]
  | replaying pending =>
    cases h.1
    refine ⟨.handler, _, rfl, ?_⟩
    simp [Client.left, turn]
  | streaming position text channel =>
    obtain ⟨hposition, hsent⟩ := h
    obtain ⟨lines, hlines, -⟩ := hsent rfl
    cases hlines
    cases lines with
    | cons line lines =>
      refine ⟨.forward, _, rfl, ?_⟩
      simp [Client.left, turn, forwardTurn]
    | nil =>
      cases text with
      | some text =>
        refine ⟨.log, _, rfl, ?_⟩
        simp [Client.left, turn, logTurn, channelCapacity]
      | none =>
        have hlt : position < s.log.length := by
          rw [← s.length_lines]
          refine lt_of_le_of_ne hposition fun heq => ?_
          simp [Client.caughtUp, heq] at hleft
        refine ⟨.log, _, rfl, ?_⟩
        simp only [turn, logTurn, List.getElem?_eq_getElem hlt]
        cases s.log[position] with
        | stdOut text | stdErr text | stdIn text | console text =>
          simp only [Client.left, Option.toList_some, Option.toList_none, List.length_singleton,
            List.length_nil]
          omega
  | stopped => cases h

theorem OneReader.exact {p : State} (h : OneReader k p.store p.tasks) : Exact p where
  buffer := ⟨k, h.read, h.buffer⟩
  received := fun c hc => (h.sent c hc).beginning
  complete := fun c hc => (h.sent c hc).complete
  advances := fun c hc => (h.sent c hc).advances

theorem OneReader.perm {tasks' : List Client} (h : OneReader k s tasks)
    (hperm : tasks.Perm tasks') : OneReader k s tasks' where
  read := h.read
  buffer := h.buffer
  sent := fun c hc => h.sent c (hperm.mem_iff.mpr hc)
  position := fun c hc => h.position c (hperm.mem_iff.mpr hc)
  alone := hperm.countP_eq _ ▸ h.alone

/-- Without its first client, and with another in its place. -/
theorem OneReader.replace (h : OneReader k s (c :: rest)) (hsent : c'.Sent s.lines)
    (hposition : c'.position = c.position ∨ c'.position = 0) : OneReader k s (c' :: rest) := by
  obtain ⟨hfirst, hrest⟩ := List.forall_mem_cons.mp h.position
  refine ⟨h.read, h.buffer, List.forall_mem_cons.mpr
    ⟨hsent, (List.forall_mem_cons.mp h.sent).2⟩, List.forall_mem_cons.mpr ⟨?_, hrest⟩, ?_⟩
  · rcases hposition with hsame | hzero
    · rw [hsame]
      exact hfirst
    · exact .inl hzero
  · have halone := h.alone
    rw [List.countP_cons] at halone ⊢
    rcases hposition with hsame | hzero
    · rw [hsame]
      exact halone
    · simp only [hzero, bne_self_eq_false, Bool.false_eq_true, if_false]
      omega

theorem OneReader.drop (h : OneReader k s (c :: rest)) : OneReader k s rest where
  read := h.read
  buffer := h.buffer
  sent := (List.forall_mem_cons.mp h.sent).2
  position := (List.forall_mem_cons.mp h.position).2
  alone := by
    have halone := h.alone
    rw [List.countP_cons] at halone
    omega

/-- A turn of the handler. -/
theorem OneReader.handler (h : OneReader k s (c :: rest))
    (hbegins : c.stage = .arrived → s.buffer.lines = []) :
    OneReader k s ((handlerTurn s c).toList ++ rest) := by
  have hsent := (List.forall_mem_cons.mp h.sent).1
  obtain ⟨connected, received, stage⟩ := c
  cases stage with
  | arrived => exact h.replace ⟨hbegins rfl, hsent⟩ (.inl rfl)
  | replaying pending =>
    obtain ⟨rfl, hreceived⟩ := hsent
    refine h.replace ⟨Nat.zero_le _, fun _ => ⟨[], rfl, ?_⟩⟩ (.inl rfl)
    simpa using hreceived
  | streaming | stopped =>
    cases connected with
    | true => exact h
    | false => exact h.drop

/-- The client leaves. -/
theorem OneReader.leave (h : OneReader k s (c :: rest)) :
    OneReader k s ({ c with connected := false } :: rest) := by
  have hsent := (List.forall_mem_cons.mp h.sent).1
  obtain ⟨connected, received, stage⟩ := c
  cases stage with
  | arrived | replaying => exact h.replace hsent (.inl rfl)
  | streaming => exact h.replace ⟨hsent.1, fun h => by cases h⟩ (.inl rfl)
  | stopped => exact h.replace rfl (.inl rfl)

/-- A turn of the forwarding task. -/
theorem OneReader.forward (h : OneReader k s (c :: rest)) :
    OneReader k s (forwardTurn c :: rest) := by
  have hsent := (List.forall_mem_cons.mp h.sent).1
  obtain ⟨connected, received, stage⟩ := c
  unfold forwardTurn
  split
  next position text line channel hstage =>
    cases hstage
    split
    next hconnected =>
      refine h.replace ⟨hsent.1, fun _ => ⟨channel, rfl, ?_⟩⟩ (.inl rfl)
      obtain ⟨lines, hlines, hall⟩ := hsent.2 hconnected
      cases hlines
      simpa using hall
    next hgone => exact h.replace ⟨hsent.1, fun h => absurd h hgone⟩ (.inl rfl)
  next => exact h

/-- While the buffer is empty nothing has been read. -/
theorem OneReader.read_zero (h : OneReader k s tasks) (hempty : s.buffer.lines = []) : k = 0 := by
  have hread := h.read
  have hlength := congrArg List.length (h.buffer.symm.trans hempty)
  rw [List.rtake, List.length_drop, List.length_take, List.length_nil] at hlength
  have hcapacity : defaultCapacity = 500 := rfl
  omega

/-- The task that reads a line is the one that has read all the others. -/
theorem OneReader.push (h : OneReader k s (c :: rest)) {position : Nat} {text : String}
    {channel : Option (List String)} (hstage : c.stage = .streaming position none channel)
    (hbegins : position = 0 → s.buffer.lines = []) (htext : s.lines[position]? = some text) :
    OneReader (k + 1) { s with buffer := s.buffer.push text }
      ({ c with stage := .streaming (position + 1) (some text) channel } :: rest) := by
  obtain ⟨hsent, hrest⟩ := List.forall_mem_cons.mp h.sent
  obtain ⟨hposition, hothers⟩ := List.forall_mem_cons.mp h.position
  rw [Client.Sent, hstage] at hsent
  rw [show c.position = position by rw [Client.position, hstage]] at hposition
  have heq : position = k := by
    rcases hposition with hzero | hsame
    · rw [hzero, h.read_zero (hbegins hzero)]
    · exact hsame
  have hzero : ∀ u ∈ rest, u.position = 0 := by
    intro u hu
    rcases hothers u hu with hzero | hsame
    · exact hzero
    · by_contra hne
      have halone := h.alone
      have hu : 0 < rest.countP fun c => c.position != 0 :=
        List.countP_pos_iff.mpr ⟨u, hu, bne_iff_ne.mpr hne⟩
      have hreads : (c.position != 0) = true := by
        rw [show c.position = position by rw [Client.position, hstage], heq, ← hsame]
        exact bne_iff_ne.mpr hne
      rw [List.countP_cons, if_pos hreads] at halone
      omega
  have htake : s.lines.take (k + 1) = s.lines.take k ++ [text] := by
    rw [List.take_add_one, ← heq, htext]
    rfl
  have hlt : k < s.lines.length := by
    rw [← heq]
    exact (List.getElem?_eq_some_iff.mp htext).1
  refine ⟨hlt, ?_, List.forall_mem_cons.mpr ⟨?_, hrest⟩, List.forall_mem_cons.mpr ⟨?_, ?_⟩, ?_⟩
  · show (s.buffer.push text).lines = (s.lines.take (k + 1)).rtake defaultCapacity
    rw [htake]
    exact ConsoleBuffer.lines_push h.buffer
  · refine ⟨by rw [heq]; exact hlt, fun hconnected => ?_⟩
    obtain ⟨lines, hlines, hall⟩ := hsent.2 hconnected
    refine ⟨lines, hlines, ?_⟩
    show c.received ++ lines ++ [text] = s.lines.take (position + 1)
    rw [heq, htake, ← heq, ← hall]
    simp
  · exact .inr (by rw [heq]; rfl)
  · exact fun u hu => .inl (hzero u hu)
  · have hcount : rest.countP (fun c => c.position != 0) = 0 := by
      refine List.countP_eq_zero.mpr fun u hu => ?_
      simp only [hzero u hu, bne_self_eq_false, Bool.false_eq_true, not_false_eq_true]
    rw [List.countP_cons, hcount]
    split <;> omega

/-- A turn of the log task that passes no line over. -/
theorem OneReader.log (h : OneReader k s (c :: rest))
    (hbegins : c.begins .log = true → s.buffer.lines = [])
    (hreads : ∀ item ∈ c.reads s .log, item.forwarded = true) :
    ∃ k, OneReader k (logTurn s c).1 ((logTurn s c).2 :: rest) := by
  have hsent := (List.forall_mem_cons.mp h.sent).1
  unfold logTurn
  split
  next position channel hstage =>
    have hread : c.reads s .log = s.log[position]? := by rw [Client.reads, hstage]
    have hempty (hzero : position = 0) : s.buffer.lines = [] := by
      refine hbegins ?_
      simp only [Client.begins, hstage, hzero]
    have htext (item : LogOutput) (hitem : s.log[position]? = some item) :
        s.lines[position]? = some item.message := by
      rw [Store.lines, List.getElem?_map, hitem]
      rfl
    split
    next text hitem => exact ⟨k + 1, h.push hstage hempty (htext _ hitem)⟩
    next text hitem => exact ⟨k + 1, h.push hstage hempty (htext _ hitem)⟩
    next item hout herr hitem =>
      have hforwarded := hreads item (hread.trans hitem)
      cases item with
      | stdOut text => exact absurd rfl (hout text)
      | stdErr text => exact absurd rfl (herr text)
      | stdIn text | console text => cases hforwarded
    next => exact ⟨k, h⟩
  next position text channel hstage =>
    split
    next =>
      refine ⟨k, h.replace ?_ (.inl ?_)⟩
      · rw [Client.Sent, hstage] at hsent
        refine ⟨hsent.1, fun hconnected => ?_⟩
        obtain ⟨lines, hlines, hall⟩ := hsent.2 hconnected
        cases hlines
        exact ⟨_, rfl, by simpa using hall⟩
      · rw [Client.position, Client.position, hstage]
    next => exact ⟨k, h⟩
  next position text hstage =>
    refine ⟨k, h.replace ?_ (.inr rfl)⟩
    rw [Client.Sent, hstage] at hsent
    show c.connected = false
    cases hconnected : c.connected with
    | false => rfl
    | true =>
      obtain ⟨lines, hlines, -⟩ := hsent.2 hconnected
      cases hlines
  next => exact ⟨k, h⟩

theorem OneReader.turn {strand : Strand} (h : OneReader k s (c :: rest))
    (hbegins : c.begins strand = true → s.buffer.lines = [])
    (hreads : ∀ item ∈ c.reads s strand, item.forwarded = true) :
    ∃ k, OneReader k (turn s strand c).store ((turn s strand c).next.toList ++ rest) := by
  cases strand with
  | handler =>
    refine ⟨k, h.handler fun hstage => hbegins ?_⟩
    rw [Client.begins, hstage]
    rfl
  | log => exact h.log hbegins hreads
  | forward => exact ⟨k, h.forward⟩
  | leave => exact ⟨k, h.leave⟩

theorem OneReader.step {p p' : State} {label : Label} (h : ∃ k, OneReader k p.store p.tasks)
    (hbegins : BeginsEmpty p label) (hreads : ReadsForwarded p label)
    (hstep : clients.step p label = some p') :
    ∃ k, OneReader k p'.store p'.tasks := by
  obtain ⟨k, h⟩ := h
  cases label with
  | start c =>
    obtain ⟨hstarts, rfl⟩ := Tasks.step_start hstep
    have hc : c = ⟨true, [], .arrived⟩ := by simpa [clients] using hstarts
    refine ⟨k, h.read, h.buffer, List.forall_mem_cons.mpr ⟨?_, h.sent⟩,
      List.forall_mem_cons.mpr ⟨.inl ?_, h.position⟩, ?_⟩
    · rw [hc]
      rfl
    · rw [hc]
      rfl
    · rw [List.countP_cons, hc]
      exact h.alone
  | turn i strand =>
    obtain ⟨c, hc, rfl⟩ := Tasks.step_turn hstep
    obtain ⟨hi, rfl⟩ := List.getElem?_eq_some_iff.mp hc
    have hperm := (List.getElem_cons_eraseIdx_perm hi).symm
    exact (h.perm hperm).turn (hbegins _ hc) (hreads _ hc)
  | outside item =>
    obtain ⟨store, hstore, rfl⟩ := Tasks.step_outside hstep
    cases hstore
    have hlines : Store.lines { p.store with log := p.store.log ++ [item] } =
        p.store.lines ++ [item.message] := List.map_append ..
    refine ⟨k, ?_, ?_, fun c hc => ?_, h.position, h.alone⟩
    · rw [hlines, List.length_append]
      exact Nat.le_add_right_of_le h.read
    · rw [hlines, List.take_append_of_le_length h.read]
      exact h.buffer
    · rw [hlines]
      exact (h.sent c hc).grow

theorem oneReader_idle (log : List LogOutput) : OneReader 0 (idle log).store (idle log).tasks where
  read := Nat.zero_le _
  buffer := by
    rw [List.take_zero, List.rtake_nil]
    rfl
  sent := fun _ hc => by cases hc
  position := fun _ hc => by cases hc
  alone := Nat.zero_le _

/-- In every run of clients that come and go while the log grows, in which no client is replayed
the buffer or begins to read the log once the buffer holds a line, and no line that is read is
passed over: the buffer is always the end of what has been read, and every connected client is
sent the log, line by line. -/
theorem exact_of_readsForwarded {log : List LogOutput} {ls : List Label}
    (hbegins : Along clients.step BeginsEmpty (idle log) ls)
    (hreads : Along clients.step ReadsForwarded (idle log) ls) :
    ∀ ks, ks <+: ls → ∀ p', run clients.step (idle log) ks = some p' → Exact p' := by
  rintro ks ⟨rest, rfl⟩ p' hrun
  obtain ⟨k, hreader⟩ := run_invariant (I := fun p => ∃ k, OneReader k p.store p.tasks)
    (fun _ _ _ h hl hstep => OneReader.step h hl.1 hl.2 hstep) ⟨0, oneReader_idle log⟩
    (along_append.mp (along_and.mpr ⟨hbegins, hreads⟩)).1 hrun
  exact hreader.exact

end Turns

/-! ## A container with a terminal -/

section Terminal

variable {s : Store} {c : Client} {p p' : State}

/-- The client has been sent nothing, and nothing is on the way to it. -/
def Client.Silent (c : Client) : Prop :=
  c.received = [] ∧
    match c.stage with
    | .arrived | .stopped => True
    | .replaying pending => pending = []
    | .streaming _ text channel => text = none ∧ ∀ lines ∈ channel, lines = []

/-- The log has come from a terminal, and nothing of it has gone anywhere. -/
structure SilentStore (s : Store) : Prop where
  log : ∀ item ∈ s.log, item.forwarded = false
  buffer : s.buffer.lines = []

theorem SilentStore.turn (hs : SilentStore s) (hc : c.Silent) (strand : Strand) :
    SilentStore (turn s strand c).store ∧
      ∀ next ∈ (turn s strand c).next, next.Silent := by
  obtain ⟨connected, received, stage⟩ := c
  obtain ⟨rfl, hstage⟩ := hc
  cases strand with
  | handler =>
    refine ⟨hs, fun next hnext => ?_⟩
    cases stage with
    | arrived =>
      cases hnext
      exact ⟨rfl, hs.buffer⟩
    | replaying pending =>
      cases hstage
      cases hnext
      exact ⟨rfl, rfl, fun _ h => by cases h; rfl⟩
    | streaming position text channel | stopped =>
      cases connected with
      | true =>
        cases hnext
        exact ⟨rfl, hstage⟩
      | false => cases hnext
  | log =>
    cases stage with
    | arrived | replaying pending | stopped =>
      exact ⟨hs, fun next hnext => by cases hnext; exact ⟨rfl, hstage⟩⟩
    | streaming position text channel =>
      obtain ⟨rfl, hchannel⟩ := hstage
      simp only [Console.turn, logTurn]
      split
      next text hitem => cases hs.log _ (List.mem_of_getElem? hitem)
      next text hitem => cases hs.log _ (List.mem_of_getElem? hitem)
      next => exact ⟨hs, fun next hnext => by cases hnext; exact ⟨rfl, rfl, hchannel⟩⟩
      next => exact ⟨hs, fun next hnext => by cases hnext; exact ⟨rfl, rfl, hchannel⟩⟩
  | forward =>
    refine ⟨hs, fun next hnext => ?_⟩
    cases hnext
    cases stage with
    | arrived | replaying pending | stopped => exact ⟨rfl, hstage⟩
    | streaming position text channel =>
      cases channel with
      | none => exact ⟨rfl, hstage⟩
      | some lines =>
        cases hstage.2 lines rfl
        exact ⟨rfl, hstage⟩
  | leave => exact ⟨hs, fun next hnext => by cases hnext; exact ⟨rfl, hstage⟩⟩

/-- An item that is passed over. -/
def FromTerminal : Label → Prop
  | .outside item => item.forwarded = false
  | _ => True

/-- While the log comes from a terminal no client is sent a line of it, and the buffer stays
empty. -/
theorem terminal_silent {log : List LogOutput} {ls : List Label}
    (hlog : ∀ item ∈ log, item.forwarded = false) (hitems : ∀ l ∈ ls, FromTerminal l)
    (hrun : run clients.step (idle log) ls = some p') :
    p'.store.buffer.lines = [] ∧ ∀ c ∈ p'.tasks, c.received = [] := by
  have hsilent : Pool.Holds SilentStore (fun _ c => c.Silent) p' := by
    refine run_invariant (C := fun _ l => FromTerminal l) (fun p l p' hp hl hstep => ?_)
      ⟨⟨hlog, rfl⟩, fun c hc => by cases hc⟩ (along_of_forall fun l hl _ => hitems l hl) hrun
    cases l with
    | start c =>
      obtain ⟨hstarts, rfl⟩ := Tasks.step_start hstep
      have hc : c = ⟨true, [], .arrived⟩ := by simpa [clients] using hstarts
      exact ⟨hp.store, List.forall_mem_cons.mpr ⟨by rw [hc]; exact ⟨rfl, trivial⟩, hp.tasks⟩⟩
    | turn i strand =>
      obtain ⟨c, hc, rfl⟩ := Tasks.step_turn hstep
      obtain ⟨hstore, hnext⟩ := hp.store.turn (hp.tasks c (List.mem_of_getElem? hc)) strand
      refine ⟨hstore, fun t ht => ?_⟩
      rcases List.mem_append.mp ht with ht | ht
      · exact hnext t (Option.mem_toList.mp ht)
      · exact hp.tasks t (List.mem_of_mem_eraseIdx ht)
    | outside item =>
      obtain ⟨store, hstore, rfl⟩ := Tasks.step_outside hstep
      cases hstore
      refine ⟨⟨fun item' hitem' => ?_, hp.store.buffer⟩, hp.tasks⟩
      rcases List.mem_append.mp hitem' with hold | hnew
      · exact hp.store.log item' hold
      · rw [List.mem_singleton.mp hnew]
        exact hl
  exact ⟨hsilent.store.buffer, fun c hc => (hsilent.tasks c hc).1⟩

end Terminal

/-! ## Two clients of one console, and one of another -/

section Counterexample

def connects : Label := .start ⟨true, [], .arrived⟩

/-- A client connects, its handler takes two turns, and the first line is read and sent. -/
def watches : List Label :=
  [connects, .turn 0 .handler, .turn 0 .handler, .turn 0 .log, .turn 0 .log, .turn 0 .forward]

theorem exact_watches : Always clients.step (fun _ => Exact) (idle [.stdOut "Done!"]) watches :=
  exact_of_readsForwarded (by decide +kernel) (by decide +kernel)

/-- A second client is sent the line twice, once from the buffer and once from the log, and then
the buffer holds it twice. -/
theorem line_repeated :
    ∃ p', run clients.step (idle [.stdOut "Done!"])
        (watches ++ connects :: List.replicate 3 (.turn 0 .handler) ++
          [.turn 0 .log, .turn 0 .log, .turn 0 .forward]) = some p' ∧ ¬Exact p' := by
  refine ⟨_, rfl, fun h => ?_⟩
  have hprefix := h.received _ List.mem_cons_self rfl
  revert hprefix
  decide +kernel

/-- The server has a terminal: its only client is not sent the line at all, though nothing is
left to be sent. -/
theorem line_passed_over :
    ∃ p', run clients.step (idle [.console "Done!"]) watches = some p' ∧ ¬Exact p' := by
  refine ⟨_, rfl, fun h => ?_⟩
  cases h.complete _ List.mem_cons_self rfl rfl

end Counterexample

end Wings.Console
