import NexusPanel.Wings.Interfaces

/-!
# The Docker calls behind a power action

A start is carried out while the panel waits: a missing container is made again from the stored
configuration, then the container is started. The other three actions are left to a task that
runs when the request has been answered. Here both are put together: what Docker is told to do
from the arrival of a power request to the end of what it has started.

Between the answer and the task, anything may happen. So the task runs in a state of its own.
-/

namespace Wings

open StateAction DockerManager

/-! ## Calls and power operations -/

/-- The names of the power actions. -/
def powerNames : List String := ["start", "stop", "restart", "kill"]

/-- The power operation of a call: its name and the container it is for. -/
def DockerCall.power : DockerCall → Option (String × String)
  | .startContainer name => some ("start", name)
  | .stopContainer name _ => some ("stop", name)
  | .restartContainer name => some ("restart", name)
  | .killContainer name => some ("kill", name)
  | _ => none

/-- The calls that have been made since, oldest first. -/
def callsSince (s t : AppState) : List DockerCall :=
  (t.docker.calls.take (t.docker.calls.length - s.docker.calls.length)).reverse

/-- The calls of a request that arrives in `s`, and those of the tasks it leaves behind, which run
in `t`. -/
def carriedOut (serde : Serde) (r : GrpcRequest) (s t : AppState) : List DockerCall :=
  let served := (Grpc.serve serde r s).2
  callsSince s served ++ (served.spawned.drop s.spawned.length).flatMap fun task =>
    callsSince t (runSpawned task t).2

/-- Docker lists a container when it is asked. -/
def AppState.listed (s : AppState) : Bool :=
  match s.answer 0 with
  | .ok (_ :: _) => true
  | _ => false

/-- The container is there, or is made again from the stored configuration. -/
def AppState.startable (s : AppState) (uuid : String) : Bool :=
  s.listed || (s.serverConfigs.lookup uuid).isSome && !s.refuses 1 && !s.refuses 2

/-- The calls that make a missing container again. -/
def AppState.recreation (s : AppState) (uuid : String) : List DockerCall :=
  if s.listed then []
  else
    match s.serverConfigs.lookup uuid with
    | none => []
    | some config =>
      .pullImage config.dockerImage ::
        if s.refuses 1 then [] else [.createContainer (containerName config.uuid) (gameSpec config)]

/-- `s` after these calls, newest first, and these queries. -/
def AppState.after (s : AppState) (calls : List DockerCall) (queries : List DockerQuery) : AppState :=
  { s with
    docker :=
      { calls := calls ++ s.docker.calls
        queries := queries ++ s.docker.queries
        asked := s.docker.asked + (calls.length + queries.length)
        answers := s.docker.answers } }

section Calls

variable {s t : AppState} {calls calls' : List DockerCall} {queries queries' : List DockerQuery}
  {uuid name : String}

theorem callsSince_after : callsSince s (s.after calls queries) = calls.reverse := by
  simp [callsSince, AppState.after]

theorem answer_after (k : Nat) :
    (s.after calls queries).answer k = s.answer (calls.length + queries.length + k) := by
  simp [AppState.answer, AppState.after, Nat.add_assoc]

theorem after_after : (s.after calls queries).after calls' queries' =
    s.after (calls' ++ calls) (queries' ++ queries) := by
  simp only [AppState.after, List.append_assoc, List.length_append]
  congr 2
  omega

theorem spawned_after : (s.after calls queries).spawned = s.spawned := rfl

/-- The answer of Docker, as the handlers see it. -/
def AppState.reply (s : AppState) (k : Nat) : Except WingsError (List String) :=
  match s.answer k with
  | .ok items => .ok items
  | .error message => .error (.docker message)

theorem dockerCall_eq (c : DockerCall) : dockerCall c s = (s.reply 0, s.after [c] []) := by
  have hask : dockerCall c s = (match s.docker.answers s.docker.asked with
      | .ok answer => (pure answer : Handler (List String))
      | .error message => fail (.docker message)) (s.after [c] []) := rfl
  rw [hask]
  unfold AppState.reply AppState.answer
  rw [Nat.add_zero]
  cases s.docker.answers s.docker.asked <;> rfl

theorem dockerQuery_eq (q : DockerQuery) : dockerQuery q s = (s.reply 0, s.after [] [q]) := by
  have hask : dockerQuery q s = (match s.docker.answers s.docker.asked with
      | .ok answer => (pure answer : Handler (List String))
      | .error message => fail (.docker message)) (s.after [] [q]) := rfl
  rw [hask]
  unfold AppState.reply AppState.answer
  rw [Nat.add_zero]
  cases s.docker.answers s.docker.asked <;> rfl

theorem refuses_after (k : Nat) :
    (s.after calls queries).refuses k = s.refuses (calls.length + queries.length + k) := by
  simp only [AppState.refuses, answer_after]

theorem refuses_eq_false_iff {k : Nat} : s.refuses k = false ↔ ∃ items, s.reply k = .ok items := by
  unfold AppState.refuses AppState.reply
  cases s.answer k with
  | ok items => simp [Except.isOk, Except.toBool]
  | error message => simp [Except.isOk, Except.toBool]

theorem refuses_iff {k : Nat} : s.refuses k = true ↔ ∃ e, s.reply k = .error e := by
  unfold AppState.refuses AppState.reply
  cases s.answer k with
  | ok items => simp [Except.isOk, Except.toBool]
  | error message => simp [Except.isOk, Except.toBool]

/-- Asking for the container of a server: the only question, and the answer is whether there is
one. -/
theorem status_eq {ε : Type} (s : AppState) (uuid : String) : ∃ status : Option String,
    ((getContainerStatus uuid).attempt : StateAction AppState ε (Option String)) s =
      (.ok status, s.after [] [.listContainers (containerName uuid)]) ∧
      status.isSome = s.listed := by
  have hstatus : getContainerStatus uuid = dockerQuery (.listContainers (containerName uuid)) >>=
      fun states => ofOption states.head? (.serverNotFound uuid) := rfl
  unfold StateAction.attempt
  rw [hstatus]
  have hreply := dockerQuery_eq (s := s) (.listContainers (containerName uuid))
  unfold AppState.listed
  unfold AppState.reply at hreply
  cases hanswer : s.answer 0 with
  | error message =>
    rw [hanswer] at hreply
    rw [bind_error hreply]
    exact ⟨none, rfl, rfl⟩
  | ok states =>
    rw [hanswer] at hreply
    rw [bind_ok hreply]
    cases states with
    | nil => exact ⟨none, rfl, rfl⟩
    | cons state states => exact ⟨some state, rfl, rfl⟩

/-! ## A start -/

/-- Making a container: the image, then the container. -/
theorem createServer_eq (s : AppState) (config : ServerConfig) :
    (DockerManager.createServer config s).2 = s.after
        (if s.refuses 0 then [.pullImage config.dockerImage]
        else [.createContainer (containerName config.uuid) (gameSpec config),
          .pullImage config.dockerImage]) [] ∧
      ((∃ id, (DockerManager.createServer config s).1 = .ok id) ↔
        s.refuses 0 = false ∧ s.refuses 1 = false) := by
  have hpull := dockerCall_eq (s := s) (.pullImage config.dockerImage)
  unfold DockerManager.createServer
  cases hfirst : s.reply 0 with
  | error e =>
    have hrefuses := refuses_iff.mpr ⟨e, hfirst⟩
    rw [hfirst] at hpull
    rw [bind_error hpull]
    simp [hrefuses]
  | ok items =>
    have hrefuses := refuses_eq_false_iff.mpr ⟨items, hfirst⟩
    rw [hfirst] at hpull
    rw [bind_ok hpull]
    have hcreate := dockerCall_eq (s := s.after [.pullImage config.dockerImage] [])
      (.createContainer (containerName config.uuid) (gameSpec config))
    have hsecond : (s.after [.pullImage config.dockerImage] []).reply 0 = s.reply 1 := by
      simp only [AppState.reply, answer_after]
      rfl
    rw [hsecond, after_after] at hcreate
    cases hreply : s.reply 1 with
    | error e =>
      have hlast := refuses_iff.mpr ⟨e, hreply⟩
      rw [hreply] at hcreate
      rw [bind_error hcreate]
      simp [hrefuses, hlast]
    | ok id =>
      have hlast := refuses_eq_false_iff.mpr ⟨id, hreply⟩
      rw [hreply] at hcreate
      rw [bind_ok hcreate]
      refine ⟨?_, iff_of_true ⟨_, rfl⟩ ⟨hrefuses, hlast⟩⟩
      rw [if_neg (by simp [hrefuses])]
      rfl

/-- What a start does before it starts: it asks for the container and makes it when it is
missing. -/
theorem recreateMissing_eq (s : AppState) (uuid : String) :
    (Grpc.recreateMissing uuid s).2 =
        s.after (s.recreation uuid).reverse [.listContainers (containerName uuid)] ∧
      ((∃ u, (Grpc.recreateMissing uuid s).1 = .ok u) ↔ s.startable uuid = true) := by
  obtain ⟨status, hstatus, hlisted⟩ := status_eq s uuid
  unfold Grpc.recreateMissing
  rw [bind_ok hstatus]
  unfold AppState.recreation AppState.startable
  rw [← hlisted]
  cases status with
  | some state => exact ⟨rfl, iff_of_true ⟨(), rfl⟩ rfl⟩
  | none =>
    have hstored : Grpc.internal "" (AppState.getServerConfig uuid)
        (s.after [] [.listContainers (containerName uuid)]) =
        (.ok (s.serverConfigs.lookup uuid), s.after [] [.listContainers (containerName uuid)]) :=
      rfl
    simp only [Option.isSome_none, Bool.false_eq_true, if_false, Bool.false_or]
    rw [bind_ok hstored]
    cases s.serverConfigs.lookup uuid with
    | none =>
      refine ⟨rfl, iff_of_false ?_ (by simp)⟩
      rintro ⟨u, h⟩
      cases h
    | some config =>
      obtain ⟨hleft, hmade⟩ :=
        createServer_eq (s.after [] [.listContainers (containerName uuid)]) config
      simp only [refuses_after, after_after, List.nil_append, List.append_nil, List.length_nil,
        List.length_singleton, Nat.zero_add, Nat.reduceAdd] at hleft hmade
      have hcreate : ∀ r, (DockerManager.createServer config
          (s.after [] [.listContainers (containerName uuid)])).1 = r →
          Grpc.internal "Failed to recreate container: " (DockerManager.createServer config)
            (s.after [] [.listContainers (containerName uuid)]) =
          (r.mapError fun e => .internal ("Failed to recreate container: " ++ e.message),
            (DockerManager.createServer config
              (s.after [] [.listContainers (containerName uuid)])).2) := by
        rintro r rfl
        simp only [Grpc.internal, StateAction.mapErr]
        cases DockerManager.createServer config
            (s.after [] [.listContainers (containerName uuid)]) with
        | mk r t => cases r <;> rfl
      have hgoal : ∀ x, (do
            let cfg ← ofOption (some config) (.notFound
              "Server config not found in registry, cannot recreate container")
            let _ ← Grpc.internal "Failed to recreate container: " (DockerManager.createServer cfg)
            return () : Method Unit) x =
          (Grpc.internal "Failed to recreate container: " (DockerManager.createServer config) >>=
            fun _ => pure ()) x := fun _ => rfl
      rw [hgoal]
      have hcalls : s.after
          (if s.refuses 1 then [.pullImage config.dockerImage]
          else [.createContainer (containerName config.uuid) (gameSpec config),
            .pullImage config.dockerImage]) [.listContainers (containerName uuid)] =
          s.after (.pullImage config.dockerImage :: if s.refuses 1 then []
            else [.createContainer (containerName config.uuid) (gameSpec config)]).reverse
            [.listContainers (containerName uuid)] := by
        cases s.refuses 1 <;> rfl
      cases hresult : (DockerManager.createServer config
          (s.after [] [.listContainers (containerName uuid)])).1 with
      | ok id =>
        rw [bind_ok (hcreate _ hresult)]
        obtain ⟨hpulled, hdone⟩ := hmade.mp ⟨id, hresult⟩
        exact ⟨hleft.trans hcalls, iff_of_true ⟨(), rfl⟩ (by simp [hpulled, hdone])⟩
      | error e =>
        rw [bind_error (hcreate _ hresult)]
        refine ⟨hleft.trans hcalls, iff_of_false ?_ fun h => ?_⟩
        · rintro ⟨u, h⟩
          cases h
        · obtain ⟨id, hid⟩ := hmade.mpr (by simpa using h)
          rw [hresult] at hid
          cases hid

/-! ## What is carried out -/

/-- A task whose only call is `c`, behind which it asks for the container. -/
theorem callsSince_runSpawned {action : String} {c : DockerCall}
    (htask : powerTask uuid action = (dockerCall c >>= fun _ => pure ())) (t : AppState) :
    callsSince t (runSpawned (.powerAction uuid action) t).2 = [c] := by
  have hrun : runSpawned (.powerAction uuid action) = powerTask uuid action >>= fun _ =>
      ((getContainerStatus uuid).attempt : Handler (Option String)) >>= fun _ => pure () := rfl
  have hcall := dockerCall_eq (s := t) c
  rw [hrun, htask]
  cases hreply : t.reply 0 with
  | error e =>
    rw [hreply] at hcall
    rw [bind_error (bind_error hcall)]
    exact callsSince_after
  | ok items =>
    rw [hreply] at hcall
    have htold : (dockerCall c >>= fun _ => (pure () : Handler Unit)) t =
        (.ok (), t.after [c] []) := bind_ok hcall
    obtain ⟨status, hstatus, -⟩ := @status_eq WingsError (t.after [c] []) uuid
    rw [bind_ok htold, bind_ok hstatus, after_after]
    exact callsSince_after

/-- The calls of a power request, by the name of its action. -/
def powerCalls (s : AppState) (uuid : String) : String → List DockerCall
  | "start" =>
    s.recreation uuid ++ if s.startable uuid then [.startContainer (containerName uuid)] else []
  | "stop" => [.stopContainer (containerName uuid) 30]
  | "restart" => [.restartContainer (containerName uuid)]
  | "kill" => [.killContainer (containerName uuid)]
  | _ => []

/-- The start itself, between two questions for the state of the container. -/
theorem started_eq (s : AppState) (uuid : String) : ∃ queries,
    ((((getContainerStatus uuid).attempt : Method (Option String)) >>= fun _ =>
      Grpc.internal "" (startServer uuid) >>= fun _ =>
      ((getContainerStatus uuid).attempt : Method (Option String)) >>= fun _ =>
      pure GrpcResponse.done) s).2 = s.after [.startContainer (containerName uuid)] queries := by
  obtain ⟨status, hstatus, -⟩ := @status_eq Status s uuid
  rw [bind_ok hstatus]
  have hcall := dockerCall_eq (s := s.after [] [.listContainers (containerName uuid)])
    (.startContainer (containerName uuid))
  rw [after_after] at hcall
  cases hreply : (s.after [] [.listContainers (containerName uuid)]).reply 0 with
  | error e =>
    rw [hreply] at hcall
    have hstart : Grpc.internal "" (startServer uuid)
        (s.after [] [.listContainers (containerName uuid)]) = (.error (.internal ("" ++ e.message)),
          s.after [.startContainer (containerName uuid)] [.listContainers (containerName uuid)]) := by
      have hfailed : startServer uuid (s.after [] [.listContainers (containerName uuid)]) =
          (.error e, _) := bind_error hcall
      simp only [Grpc.internal, StateAction.mapErr, hfailed]
      rfl
    rw [bind_error hstart]
    exact ⟨_, rfl⟩
  | ok items =>
    rw [hreply] at hcall
    have hstart : Grpc.internal "" (startServer uuid)
        (s.after [] [.listContainers (containerName uuid)]) = (.ok (),
          s.after [.startContainer (containerName uuid)] [.listContainers (containerName uuid)]) := by
      have hdone : startServer uuid (s.after [] [.listContainers (containerName uuid)]) =
          (.ok (), _) := bind_ok hcall
      simp only [Grpc.internal, StateAction.mapErr, hdone]
      rfl
    obtain ⟨status', hstatus', -⟩ := @status_eq Status
      (s.after [.startContainer (containerName uuid)] [.listContainers (containerName uuid)]) uuid
    rw [bind_ok hstart, bind_ok hstatus', after_after]
    exact ⟨_, rfl⟩

/-- A start is carried out at once. -/
theorem carriedOut_start (serde : Serde) (uuid : String) (s t : AppState) :
    carriedOut serde (.sendPowerAction uuid 0) s t = powerCalls s uuid "start" := by
  obtain ⟨hleft, hdone⟩ := recreateMissing_eq s uuid
  have hserve : Grpc.serve serde (.sendPowerAction uuid 0) = Grpc.recreateMissing uuid >>= fun _ =>
      ((getContainerStatus uuid).attempt : Method (Option String)) >>= fun _ =>
      Grpc.internal "" (startServer uuid) >>= fun _ =>
      ((getContainerStatus uuid).attempt : Method (Option String)) >>= fun _ =>
      pure .done := rfl
  have hbehind : ∀ {u queries}, (Grpc.serve serde (.sendPowerAction uuid 0) s).2 =
      s.after u queries → carriedOut serde (.sendPowerAction uuid 0) s t = u.reverse := by
    intro u queries h
    simp only [carriedOut, h, spawned_after, List.drop_length, List.flatMap_nil, List.append_nil,
      callsSince_after]
  unfold powerCalls
  cases hresult : (Grpc.recreateMissing uuid s).1 with
  | ok u =>
    have hthere : Grpc.recreateMissing uuid s =
        (.ok u, s.after (s.recreation uuid).reverse [.listContainers (containerName uuid)]) :=
      Prod.ext hresult hleft
    obtain ⟨queries, hstarted⟩ := started_eq
      (s.after (s.recreation uuid).reverse [.listContainers (containerName uuid)]) uuid
    rw [after_after] at hstarted
    rw [hbehind (by rw [hserve, bind_ok hthere]; exact hstarted), if_pos (hdone.mp ⟨u, hresult⟩)]
    simp
  | error e =>
    have hmissing : Grpc.recreateMissing uuid s =
        (.error e, s.after (s.recreation uuid).reverse [.listContainers (containerName uuid)]) :=
      Prod.ext hresult hleft
    have hnot : ¬ s.startable uuid = true := fun h => by
      obtain ⟨u, hu⟩ := hdone.mpr h
      rw [hresult] at hu
      cases hu
    rw [hbehind (by rw [hserve, bind_error hmissing]), if_neg hnot]
    simp

/-- The other actions are left to a task. -/
theorem carriedOut_later (serde : Serde) {action : Nat} {c : DockerCall}
    (hserve : Grpc.serve serde (.sendPowerAction uuid action) =
      (((getContainerStatus uuid).attempt : Method (Option String)) >>= fun _ =>
        Grpc.spawn (.powerAction uuid name) >>= fun _ => pure .done))
    (htask : powerTask uuid name = (dockerCall c >>= fun _ => pure ())) (s t : AppState) :
    carriedOut serde (.sendPowerAction uuid action) s t = [c] := by
  obtain ⟨status, hstatus, -⟩ := @status_eq Status s uuid
  have hserved : (Grpc.serve serde (.sendPowerAction uuid action) s).2 =
      { s.after [] [.listContainers (containerName uuid)] with
        spawned := s.spawned ++ [.powerAction uuid name] } := by
    rw [hserve, bind_ok hstatus]
    rfl
  simp only [carriedOut, hserved, List.drop_left, List.flatMap_cons, List.flatMap_nil,
    List.append_nil, callsSince_runSpawned htask]
  exact congrArg (· ++ [c]) (@callsSince_after s [] [.listContainers (containerName uuid)])

theorem carriedOut_sendPowerAction (serde : Serde) (uuid : String) (action : Nat)
    (s t : AppState) : carriedOut serde (.sendPowerAction uuid action) s t =
      (Grpc.powerActionOf action).elim [] (powerCalls s uuid) := by
  unfold Grpc.powerActionOf
  split
  · exact carriedOut_start serde uuid s t
  · exact carriedOut_later serde rfl rfl s t
  · exact carriedOut_later serde rfl rfl s t
  · exact carriedOut_later serde rfl rfl s t
  next h0 h1 h2 h3 =>
    have hunknown : Grpc.powerActionOf action = none := by
      unfold Grpc.powerActionOf
      split <;> first | contradiction | rfl
    have hserved : (Grpc.serve serde (.sendPowerAction uuid action) s).2 = s := by
      have hrefused : (ofOption (Grpc.powerActionOf action) (.invalidArgument "Invalid power action")
          : Method String) s = (.error (.invalidArgument "Invalid power action"), s) := by
        rw [hunknown]
        rfl
      rw [Grpc.serve]
      unfold Grpc.sendPowerAction
      rw [bind_error hrefused]
    simp [carriedOut, hserved, callsSince]

/-! ## Its power operation -/

/-- Of the calls of an action that has a name, one is a power operation, and it has that name. Only
a start may find nothing to start. -/
theorem power_powerCalls {action : String} (h : action ∈ powerNames) :
    (powerCalls s uuid action).filterMap DockerCall.power =
      if action = "start" → s.startable uuid = true then [(action, containerName uuid)] else [] := by
  have hrecreation : (s.recreation uuid).filterMap DockerCall.power = [] := by
    unfold AppState.recreation
    split
    · rfl
    · cases s.serverConfigs.lookup uuid with
      | none => rfl
      | some config => cases s.refuses 1 <;> rfl
  simp only [powerNames, List.mem_cons, List.not_mem_nil, or_false] at h
  rcases h with rfl | rfl | rfl | rfl
  · simp only [powerCalls, List.filterMap_append, hrecreation]
    cases s.startable uuid <;> simp [DockerCall.power]
  · simp [powerCalls, DockerCall.power]
  · simp [powerCalls, DockerCall.power]
  · simp [powerCalls, DockerCall.power]

/-- A start asks nothing of Docker exactly when there is no container and nothing to make one
from. -/
theorem powerCalls_start_eq_nil : powerCalls s uuid "start" = [] ↔
    s.listed = false ∧ s.serverConfigs.lookup uuid = none := by
  unfold powerCalls AppState.recreation AppState.startable
  cases s.listed with
  | true => simp
  | false => cases s.serverConfigs.lookup uuid <;> simp

end Calls

end Wings
