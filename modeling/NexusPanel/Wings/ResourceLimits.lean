import Mathlib.Algebra.Ring.Int.Defs
import NexusPanel.Wings.Effects

/-!
# Resource limits

The panel sends the memory of a server in megabytes and its share of the processors in
percent. Docker wants bytes and billionths of a processor, both as signed words. The
conversion is written twice, for the container that is created from a configuration
(`DockerManager.gameSpec`) and for the one that is updated (`Grpc.updateResources`).

The processors always fit. The bytes fit a signed word below `2 ^ 43` megabytes; from there
on the product is negative or wraps around (in a build with overflow checks it panics), and
nothing refuses the request.
-/

namespace Wings

open StateAction

/-! ## The conversions -/

/-- A word with its top bit clear keeps its value as a signed word. -/
theorem toInt_toInt64 (x : UInt64) :
    x.toInt64.toInt = if x.toNat < 2 ^ 63 then (x.toNat : Int) else x.toNat - 2 ^ 64 := by
  have hbits : x.toInt64.toInt = x.toBitVec.toInt := rfl
  rw [hbits, BitVec.toInt_eq_toNat_cond, UInt64.toNat_toBitVec]
  split <;> split <;> omega

theorem toNat_bytes (m : UInt64) : (m * 1024 * 1024).toNat = m.toNat * 2 ^ 20 % 2 ^ 64 := by
  have hkilo : (1024 : UInt64).toNat = 1024 := rfl
  rw [UInt64.toNat_mul, UInt64.toNat_mul, hkilo]
  omega

/-- The bytes are exact as long as they fit a signed word. -/
theorem toInt_bytes (m : UInt64) :
    (m * 1024 * 1024).toInt64.toInt = m.toNat * 2 ^ 20 ↔ m.toNat < 2 ^ 43 := by
  have hm := m.toNat_lt
  rw [toInt_toInt64, toNat_bytes]
  split <;> omega

theorem toNat_nanos (c : UInt32) : (c.toUInt64 * 10000000).toNat = c.toNat * 10 ^ 7 := by
  have hc := c.toNat_lt
  have htens : (10000000 : UInt64).toNat = 10000000 := rfl
  rw [UInt64.toNat_mul, htens, UInt32.toNat_toUInt64]
  omega

/-- The processors always are. -/
theorem toInt_nanos (c : UInt32) : (c.toUInt64 * 10000000).toInt64.toInt = c.toNat * 10 ^ 7 := by
  have hc := c.toNat_lt
  rw [toInt_toInt64, toNat_nanos, if_pos (by omega)]
  omega

/-- Multiplying before the cast and after it is the same. -/
theorem nanos_cast (c : UInt64) : c.toInt64 * 10000000 = (c * 10000000).toInt64 := by
  rw [UInt64.toInt64_mul]
  rfl

/-! ## Limits on their way -/

/-- The limits that go to Docker are the ones of the request, in its units. -/
structure ExactLimits (memoryLimitMb : UInt64) (cpuLimit : UInt32)
    (memory nanoCpus : Option Int64) : Prop where
  memory : ∃ m ∈ memory, m.toInt = memoryLimitMb.toNat * 2 ^ 20
  nanoCpus : ∃ n ∈ nanoCpus, n.toInt = cpuLimit.toNat * 10 ^ 7

/-- The limits a request carries, and the server they are for. -/
def GrpcRequest.limits : GrpcRequest → Option (String × UInt64 × UInt32)
  | .createServer (some cfg) _ _ | .reinstallServer (some cfg) _ _ =>
    some (cfg.uuid, cfg.memoryLimitMb, cfg.cpuLimit)
  | .updateResources uuid memoryLimitMb cpuLimit _ => some (uuid, memoryLimitMb, cpuLimit)
  | _ => none

def DockerCall.CarriesLimits (memoryLimitMb : UInt64) (cpuLimit : UInt32) : DockerCall → Prop
  | .createContainer _ spec => ExactLimits memoryLimitMb cpuLimit spec.memory spec.nanoCpus
  | .updateContainer _ memory nanoCpus => ExactLimits memoryLimitMb cpuLimit memory nanoCpus
  | _ => True

/-- Whatever container is made from a stored configuration later gets its limits from there. -/
def RegistryOp.CarriesLimits (memoryLimitMb : UInt64) (cpuLimit : UInt32) : RegistryOp → Prop
  | .store config => ExactLimits memoryLimitMb cpuLimit (DockerManager.gameSpec config).memory
      (DockerManager.gameSpec config).nanoCpus
  | .remove _ => True

/-- Since the earlier state, every call and every stored configuration carries the limits. -/
structure Carried (memoryLimitMb : UInt64) (cpuLimit : UInt32) (s t : AppState) : Prop where
  calls : ∃ new, t.docker.calls = new ++ s.docker.calls ∧
    ∀ call ∈ new, call.CarriesLimits memoryLimitMb cpuLimit
  stored : ∃ new, t.history = new ++ s.history ∧
    ∀ op ∈ new, op.CarriesLimits memoryLimitMb cpuLimit

/-- The request carries its limits to Docker, the name of the container is cut without a panic,
and an update carries the limits that a container would be created with. -/
structure LimitsSurvive (serde : Serde) (s : AppState) (request : GrpcRequest) (uuid : String)
    (memoryLimitMb : UInt64) (cpuLimit : UInt32) : Prop where
  carried : Carried memoryLimitMb cpuLimit s (Grpc.serve serde request s).2
  noPanic : DockerManager.sliced uuid ≠ none
  samePaths : ∀ (cfg : Proto.ServerConfig) (disk : UInt64), cfg.uuid = uuid →
    cfg.memoryLimitMb = memoryLimitMb → cfg.cpuLimit = cpuLimit →
    (Grpc.serve serde (.updateResources cfg.uuid memoryLimitMb cpuLimit disk) s).2.docker.calls =
      .updateContainer (DockerManager.containerName cfg.uuid)
        (DockerManager.gameSpec (Grpc.toDockerConfig cfg)).memory
        (DockerManager.gameSpec (Grpc.toDockerConfig cfg)).nanoCpus :: s.docker.calls

/-- The directory of the server cannot be made, and the request is refused before anything is
stored or created. -/
def DirectoryRefused (s : AppState) : GrpcRequest → Prop
  | .createServer (some cfg) _ _ =>
    (s.fs.createDirAll (lexical (serverDir s.config.dataDir cfg.uuid))).2 ≠ none
  | _ => False

/-! ## What the handlers carry -/

section Handlers

variable {serde : Serde} {s : AppState} {uuid : String} {m : UInt64} {c : UInt32}

theorem Carried.refl (m : UInt64) (c : UInt32) (s : AppState) : Carried m c s s where
  calls := ⟨[], rfl, fun _ hcall => absurd hcall List.not_mem_nil⟩
  stored := ⟨[], rfl, fun _ hop => absurd hop List.not_mem_nil⟩

/-- A configuration with the limits gives a container with the limits. -/
theorem exactLimits_gameSpec {config : ServerConfig} (hm : m.toNat < 2 ^ 43)
    (hmemory : config.memoryLimit = m) (hcpu : config.cpuLimit = c.toUInt64) :
    ExactLimits m c (DockerManager.gameSpec config).memory
      (DockerManager.gameSpec config).nanoCpus where
  memory := ⟨_, rfl, by rw [hmemory]; exact (toInt_bytes m).mpr hm⟩
  nanoCpus := ⟨_, rfl, by rw [hcpu]; exact toInt_nanos c⟩

theorem keeps_carried_call {call : DockerCall} (h : call.CarriesLimits m c) :
    Keeps (Carried m c s) (dockerCall call) := by
  refine keeps_ask fun t ht => ⟨?_, ht.stored⟩
  obtain ⟨new, hcalls, hnew⟩ := ht.calls
  refine ⟨call :: new, ?_, fun x hx => ?_⟩
  · show call :: t.docker.calls = call :: new ++ s.docker.calls
    rw [hcalls, List.cons_append]
  · rcases List.mem_cons.mp hx with rfl | hx
    · exact h
    · exact hnew x hx

theorem keeps_carried_store {config : ServerConfig} (h : (RegistryOp.store config).CarriesLimits m c) :
    Keeps (Carried m c s) (AppState.storeServerConfig serde config) := by
  refine Keeps.modify fun t ht => ⟨ht.calls, ?_⟩
  obtain ⟨new, hhistory, hnew⟩ := ht.stored
  refine ⟨.store config :: new, ?_, fun x hx => ?_⟩
  · show RegistryOp.store config :: t.history = .store config :: new ++ s.history
    rw [hhistory, List.cons_append]
  · rcases List.mem_cons.mp hx with rfl | hx
    · exact h
    · exact hnew x hx

/-- A change of anything but the calls and the history. -/
theorem keeps_carried_modify {ε : Type} {f : AppState → AppState}
    (hcalls : ∀ t, (f t).docker.calls = t.docker.calls) (hhistory : ∀ t, (f t).history = t.history) :
    Keeps (Carried m c s) (modify f : StateAction AppState ε Unit) := by
  refine Keeps.modify fun t ht => ⟨?_, ?_⟩
  · rw [hcalls]
    exact ht.calls
  · rw [hhistory]
    exact ht.stored

/-- What a creation, a reinstallation and an update do, given that the limits are exact. -/
theorem carried_of_exact {request : GrpcRequest}
    (hlimits : request.limits = some (uuid, m, c)) (hm : m.toNat < 2 ^ 43) : Carried m c s (Grpc.serve serde request s).2 := by
  cases request with
  | createServer server script image =>
    cases server with
    | none => cases hlimits
    | some cfg =>
      cases hlimits
      have hkeeps : Keeps (Carried cfg.memoryLimitMb cfg.cpuLimit s)
          (Grpc.createServer serde (some cfg) script image) := by
        refine Keeps.bindOption fun cfg' hcfg => ?_
        cases hcfg
        refine Keeps.bind ?_ fun dir => ?_
        · refine Keeps.bind Keeps.get fun t => ?_
          refine Keeps.bind (keeps_carried_modify (fun _ => rfl) fun _ => rfl) fun _ => ?_
          exact Keeps.bind Keeps.ensure fun _ => Keeps.pure
        · have hexact : ExactLimits cfg.memoryLimitMb cfg.cpuLimit
              (DockerManager.gameSpec { Grpc.toDockerConfig cfg with volumePath := dir }).memory
              (DockerManager.gameSpec { Grpc.toDockerConfig cfg with volumePath := dir }).nanoCpus :=
            exactLimits_gameSpec hm rfl rfl
          refine Keeps.bind (Keeps.mapErr (keeps_carried_store hexact)) fun _ => ?_
          refine Keeps.bind (Keeps.mapErr ?_) fun _ => ?_
          · refine Keeps.bind (keeps_carried_call trivial) fun _ => ?_
            exact Keeps.bind (keeps_carried_call hexact) fun _ => Keeps.pure
          · refine Triple.ite (fun _ => ?_) fun _ => Keeps.pure
            exact Keeps.bind (keeps_carried_modify (fun _ => rfl) fun _ => rfl) fun _ => Keeps.pure
      rw [Grpc.serve]
      exact hkeeps.snd (Carried.refl _ _ s)
  | reinstallServer server script image =>
    cases server with
    | none => cases hlimits
    | some cfg =>
      cases hlimits
      have hkeeps : Keeps (Carried cfg.memoryLimitMb cfg.cpuLimit s)
          (Grpc.reinstallServer serde (some cfg) script image) := by
        refine Keeps.bindOption fun cfg' hcfg => ?_
        cases hcfg
        refine Keeps.bind (Keeps.mapErr (keeps_carried_store (exactLimits_gameSpec hm rfl rfl)))
          fun _ => ?_
        exact Keeps.bind (keeps_carried_modify (fun _ => rfl) fun _ => rfl) fun _ => Keeps.pure
      rw [Grpc.serve]
      exact hkeeps.snd (Carried.refl _ _ s)
  | updateResources uuid memory cpu disk =>
    cases hlimits
    have hkeeps : Keeps (Carried m c s) (Grpc.updateResources serde uuid m c disk) := by
      refine Keeps.bind (Keeps.mapErr (keeps_carried_call ⟨?_, ?_⟩)) fun _ => ?_
      · exact ⟨_, rfl, (toInt_bytes m).mpr hm⟩
      · refine ⟨_, rfl, ?_⟩
        rw [nanos_cast]
        exact toInt_nanos c
      · refine Keeps.bind (Keeps.mapErr (Keeps.bind Keeps.get fun _ => Keeps.pure)) fun stored => ?_
        cases stored with
        | none => exact Keeps.pure
        | some cfg =>
          exact Keeps.bind (Keeps.mapErr (keeps_carried_store (exactLimits_gameSpec hm rfl rfl)))
            fun _ => Keeps.pure
    rw [Grpc.serve]
    exact hkeeps.snd (Carried.refl _ _ s)
  | deleteServer | sendPowerAction | sendCommand | syncServerConfig | getServerStatus
  | getSystemInfo | eventStream => cases hlimits

/-- An update makes one call, whatever Docker answers. -/
theorem calls_updateResources (uuid : String) (disk : UInt64) :
    (Grpc.serve serde (.updateResources uuid m c disk) s).2.docker.calls =
      .updateContainer (DockerManager.containerName uuid) (some (m * 1024 * 1024).toInt64)
        (some (c.toUInt64.toInt64 * 10000000)) :: s.docker.calls := by
  have hupdate : Triple (fun t => t = s) (Grpc.updateResources serde uuid m c disk)
      (fun _ t => t.docker.calls = .updateContainer (DockerManager.containerName uuid)
        (some (m * 1024 * 1024).toInt64) (some (c.toUInt64.toInt64 * 10000000)) :: s.docker.calls)
      (fun t => t.docker.calls = .updateContainer (DockerManager.containerName uuid)
        (some (m * 1024 * 1024).toInt64) (some (c.toUInt64.toInt64 * 10000000)) ::
          s.docker.calls) := by
    refine Triple.bind (Triple.mapErr (Triple.of_snd ?_)) fun _ => ?_
    · rintro t rfl
      exact calls_dockerCall _ t
    · refine Keeps.bind (Keeps.mapErr (Keeps.bind Keeps.get fun _ => Keeps.pure)) fun stored => ?_
      cases stored with
      | none => exact Keeps.pure
      | some cfg => exact Keeps.bind (Keeps.mapErr (Keeps.modify fun _ h => h)) fun _ => Keeps.pure
  exact hupdate.snd rfl

/-- Where the directory is made, a creation stores the configuration that it uses. -/
theorem history_createServer {cfg : Proto.ServerConfig} {script image : String}
    (hdir : (s.fs.createDirAll (lexical (serverDir s.config.dataDir cfg.uuid))).2 = none) :
    (Grpc.serve serde (.createServer (some cfg) script image) s).2.history =
      .store (cfg.created s.config.dataDir) :: s.history := by
  have hcreate : Triple (fun t => t = s) (Grpc.createServer serde (some cfg) script image)
      (fun _ t => t.history = .store (cfg.created s.config.dataDir) :: s.history)
      (fun t => t.history = .store (cfg.created s.config.dataDir) :: s.history) := by
    refine Triple.bind (Q := fun cfg' t => cfg' = cfg ∧ t = s) (Triple.pure fun t ht => ⟨rfl, ht⟩)
      fun cfg' => Triple.assume fun hcfg => ?_
    subst hcfg
    have hmade : Triple (fun t => t = s) (Grpc.ensureServerDir cfg'.uuid)
        (fun dir t => dir = serverDir s.config.dataDir cfg'.uuid ∧ t.history = s.history)
        (fun t => t.history = .store (cfg'.created s.config.dataDir) :: s.history) := by
      refine Triple.bind (Triple.get (Q := fun u t => u = s ∧ t = s) fun t ht => ⟨ht, ht⟩)
        fun u => Triple.assume fun hu => ?_
      subst hu
      refine Triple.bind (Q := fun _ t => t.history = u.history)
        (Triple.modify fun t ht => by rw [ht]) fun _ => ?_
      rw [hdir]
      exact Triple.bind (Triple.pure fun t ht => ht) fun _ => Triple.pure fun t ht => ⟨rfl, ht⟩
    refine Triple.bind hmade fun dir => Triple.assume fun hdir => ?_
    subst hdir
    refine Triple.bind (Q := fun _ t => t.history =
      .store (cfg'.created s.config.dataDir) :: s.history)
      (Triple.mapErr (Triple.modify fun t ht => ?_)) fun _ => ?_
    · rw [← ht]
      rfl
    · refine Keeps.bind (Keeps.mapErr ?_) fun _ => ?_
      · exact Keeps.bind (keeps_ask fun _ h => h) fun _ => Keeps.bind (keeps_ask fun _ h => h)
          fun _ => Keeps.pure
      · refine Triple.ite (fun _ => ?_) fun _ => Keeps.pure
        exact Keeps.bind (Keeps.modify fun _ h => h) fun _ => Keeps.pure
  rw [Grpc.serve]
  exact hcreate.snd (s := s) rfl

/-- Where it is not made, nothing is stored and nothing asked of Docker. -/
theorem carried_of_refused {request : GrpcRequest} (m : UInt64) (c : UInt32)
    (h : DirectoryRefused s request) : Carried m c s (Grpc.serve serde request s).2 := by
  cases request with
  | createServer server script image =>
    cases server with
    | none => cases h
    | some cfg =>
      have hfails : (s.fs.createDirAll (lexical (serverDir s.config.dataDir cfg.uuid))).2.isNone =
          false := by
        rw [← Bool.not_eq_true, Option.isNone_iff_eq_none]
        exact h
      have hdir : Triple (fun t => t = s) (Grpc.ensureServerDir cfg.uuid) (fun _ _ => False)
          (Carried m c s) := by
        refine Triple.bind (Triple.get (Q := fun u t => u = s ∧ t = s) fun t ht => ⟨ht, ht⟩)
          fun u => Triple.assume fun hu => ?_
        subst hu
        refine Triple.bind (Q := fun _ => Carried m c u) (Triple.modify ?_) fun _ => ?_
        · rintro t rfl
          exact ⟨⟨[], rfl, fun _ hcall => absurd hcall List.not_mem_nil⟩,
            ⟨[], rfl, fun _ hop => absurd hop List.not_mem_nil⟩⟩
        · rw [hfails]
          exact Triple.bind (Triple.fail (Q := fun _ _ => False) fun _ ht => ht) fun _ =>
            Triple.pure fun _ hfalse => hfalse.elim
      have hcreate : Triple (fun t => t = s) (Grpc.createServer serde (some cfg) script image)
          (fun _ => Carried m c s) (Carried m c s) := by
        refine Triple.bind (Q := fun cfg' t => cfg' = cfg ∧ t = s)
          (Triple.pure fun t ht => ⟨rfl, ht⟩) fun cfg' => Triple.assume fun hcfg => ?_
        subst hcfg
        exact Triple.bind hdir fun dir => ⟨fun _ hfalse => hfalse.elim⟩
      rw [Grpc.serve]
      exact hcreate.snd (s := s) rfl
  | reinstallServer | updateResources | deleteServer | sendPowerAction | sendCommand
  | syncServerConfig | getServerStatus | getSystemInfo | eventStream => cases h

theorem history_reinstallServer {cfg : Proto.ServerConfig} {script image : String} :
    (Grpc.serve serde (.reinstallServer (some cfg) script image) s).2.history =
      .store (Grpc.toDockerConfig cfg) :: s.history := rfl

/-- The configuration that was stored since carries the limits. -/
theorem Carried.of_stored {t : AppState} {config : ServerConfig} (h : Carried m c s t)
    (hstored : t.history = .store config :: s.history) :
    (RegistryOp.store config).CarriesLimits m c := by
  obtain ⟨new, hnew, hcarries⟩ := h.stored
  have heq : [RegistryOp.store config] = new := by
    refine List.append_cancel_right (?_ : _ ++ s.history = new ++ s.history)
    rw [← hnew, hstored]
    rfl
  exact hcarries _ (heq ▸ List.mem_singleton_self _)

/-- So does the only call made since. -/
theorem Carried.of_called {t : AppState} {call : DockerCall} (h : Carried m c s t)
    (hcalled : t.docker.calls = call :: s.docker.calls) : call.CarriesLimits m c := by
  obtain ⟨new, hnew, hcarries⟩ := h.calls
  have heq : [call] = new := by
    refine List.append_cancel_right (?_ : _ ++ s.docker.calls = new ++ s.docker.calls)
    rw [← hnew, hcalled]
    rfl
  exact hcarries _ (heq ▸ List.mem_singleton_self _)

/-- Exact limits are small ones. -/
theorem ExactLimits.small {config : ServerConfig} (hmemory : config.memoryLimit = m)
    (h : ExactLimits m c (DockerManager.gameSpec config).memory
      (DockerManager.gameSpec config).nanoCpus) : m.toNat < 2 ^ 43 := by
  obtain ⟨bytes, hbytes, hexact⟩ := h.memory
  cases hbytes
  rw [hmemory] at hexact
  exact (toInt_bytes m).mp hexact

end Handlers

/-- For every creation, reinstallation and update over gRPC of a server with an ASCII uuid, with
any limits, in every state and whatever Docker answers: the limits reach Docker exactly, and
creating and updating agree on them, if and only if the memory is below `2 ^ 43` megabytes or the
request is refused because the directory of the server cannot be made. -/
theorem limits_survive_iff (serde : Serde) (s : AppState) {request : GrpcRequest} {uuid : String}
    {m : UInt64} {c : UInt32} (hlimits : request.limits = some (uuid, m, c))
    (hascii : Text.isAscii uuid = true) :
    LimitsSurvive serde s request uuid m c ↔ m.toNat < 2 ^ 43 ∨ DirectoryRefused s request := by
  constructor
  · intro h
    by_cases hrefused : DirectoryRefused s request
    · exact .inr hrefused
    · left
      cases request with
      | createServer server script image =>
        cases server with
        | none => cases hlimits
        | some cfg =>
          cases hlimits
          have hstored := h.carried.of_stored (history_createServer (not_not.mp hrefused))
          exact ExactLimits.small rfl hstored
      | reinstallServer server script image =>
        cases server with
        | none => cases hlimits
        | some cfg =>
          cases hlimits
          exact ExactLimits.small rfl (h.carried.of_stored history_reinstallServer)
      | updateResources uuid memory cpu disk =>
        cases hlimits
        have hupdate : ExactLimits m c (some (m * 1024 * 1024).toInt64)
            (some (c.toUInt64.toInt64 * 10000000)) :=
          h.carried.of_called (calls_updateResources uuid disk)
        obtain ⟨bytes, hbytes, hexact⟩ := hupdate.memory
        cases hbytes
        exact (toInt_bytes m).mp hexact
      | deleteServer | sendPowerAction | sendCommand | syncServerConfig | getServerStatus
      | getSystemInfo | eventStream => cases hlimits
  · intro h
    refine ⟨?_, ?_, fun cfg disk huuid hmemory hcpu => ?_⟩
    · rcases h with hm | hrefused
      · exact carried_of_exact hlimits hm
      · exact carried_of_refused m c hrefused
    · rw [DockerManager.sliced_of_ascii hascii]
      exact Option.some_ne_none _
    · rw [calls_updateResources, nanos_cast, ← hmemory, ← hcpu]
      rfl

/-! ## Sixteen binary exabytes -/

section Counterexample

/-- A daemon that has not been asked anything yet. -/
def limitsDaemon : AppState :=
  .fresh ⟨"https://panel.example.com", "tid", "token", "/data"⟩ fun _ => .ok ["ok"]

/-- The limits of a server with a gigabyte and one processor. -/
theorem gigabyte_survives :
    LimitsSurvive .framed limitsDaemon (.updateResources "u" 1024 100 1024) "u" 1024 100 :=
  (limits_survive_iff .framed limitsDaemon rfl (by decide)).mpr (.inl (by decide))

/-- A limit of `2 ^ 44` megabytes reaches Docker as zero bytes, which means no limit at all. -/
theorem limit_lost : ¬ LimitsSurvive .framed limitsDaemon
    (.updateResources "u" 17592186044416 100 1024) "u" 17592186044416 100 := by
  intro h
  have hupdate : ExactLimits 17592186044416 100 (some 0) (some 1000000000) :=
    h.carried.of_called (calls_updateResources "u" 1024)
  obtain ⟨bytes, hbytes, hexact⟩ := hupdate.memory
  cases hbytes
  revert hexact
  decide

end Counterexample

end Wings
