import NexusPanel.Joint.ConfigAgreement
import NexusPanel.Panel.AllocationsService

/-!
# The port of an allocation

A port is a number in a request to the panel, an integer in its database, a `uint32` on the
wire and a `u16` in Wings. The last step is a cast. So what Docker binds is the port the user
sees exactly when the port fits into sixteen bits, and the panel does not check that it does.
-/

namespace Joint

open Panel Wings Transition

/-! ## The ports of an allocation -/

/-- The container that Wings makes for a server on the allocation, from the request it gets to
create it. -/
def containerOf (server : Server) (a : Allocation) (dataDir : String) : ContainerSpec :=
  DockerManager.gameSpec ((toProto (ServersService.wingsConfig server a)).created dataDir)

/-- The addresses on the host that a container binds. -/
def hostPorts (spec : ContainerSpec) : List String := spec.portBindings.map Prod.snd

/-- Every server on an allocation has the port of the allocation, in the container and on the
host, and servers on allocations with different ports of one node bind different addresses. -/
structure PortsBound (db : Database) : Prop where
  bound : ∀ a ∈ db.allocations, ∀ server dataDir, (containerOf server a dataDir).portBindings =
    [(toString a.port ++ "/tcp", "0.0.0.0:" ++ toString a.port)]
  apart : ∀ a ∈ db.allocations, ∀ b ∈ db.allocations, a.nodeId = b.nodeId → a.port ≠ b.port →
    ∀ server server' dataDir, (hostPorts (containerOf server a dataDir)).Disjoint
      (hostPorts (containerOf server' b dataDir))

/-- A request that is accepted asks for no port beyond sixteen bits. -/
def InRange (db : Database) (r : AllocationRequest) : Prop :=
  ∀ db', r.serve db = .ok db' → ∀ portEnd ∈ r.portEnd, portEnd < 65536

/-! ## The container of a server -/

section Container

variable {serde : Serde} {server : Server} {a : Allocation} {dataDir : String}

/-- Wings makes no other container when it is asked to create a server. -/
theorem createContainer_createServer {script image : String} {s : AppState} {name : String}
    {spec : ContainerSpec} (hcalls : s.docker.calls = [])
    (h : .createContainer name spec ∈ (Grpc.serve serde
      (request (.createServer server (ServersService.wingsConfig server a) script image))
        s).2.docker.calls) :
    spec = containerOf server a s.config.dataDir := by
  refine (after_serve serde _ s).preserves
    (I := fun t => ∀ name spec, .createContainer name spec ∈ t.docker.calls →
      spec = containerOf server a s.config.dataDir) (fun t e he ht => ?_) (fun _ _ h => ?_)
    name spec h
  · cases he with
    | create cfg script image hcreate =>
      cases hcreate with
      | pull =>
        intro name spec hmem
        rcases List.mem_cons.mp hmem with heq | hmem
        · cases heq
        · exact ht name spec hmem
      | create =>
        intro name spec hmem
        rcases List.mem_cons.mp hmem with heq | hmem
        · cases heq
          rfl
        · exact ht name spec hmem
    | makeDir | storeCreated | spawnCreated => exact ht
  · rw [hcalls] at h
    cases h

theorem portBindings_containerOf : (containerOf server a dataDir).portBindings =
    [(toString (a.port % 65536) ++ "/tcp", "0.0.0.0:" ++ toString (a.port % 65536))] := by
  have hport : (UInt32.ofNat a.port).toUInt16.toNat = a.port % 65536 := by
    rw [UInt32.toNat_toUInt16, UInt32.toNat_ofNat']
    omega
  rw [← hport]
  rfl

theorem bound_iff : (containerOf server a dataDir).portBindings =
    [(toString a.port ++ "/tcp", "0.0.0.0:" ++ toString a.port)] ↔ a.port < 65536 := by
  rw [portBindings_containerOf]
  constructor
  · intro h
    have hhost : toString (a.port % 65536) = toString a.port := by
      simp only [List.cons.injEq, Prod.mk.injEq, and_true] at h
      simpa [← String.toList_inj] using h.2
    have := Text.toString_inj hhost
    omega
  · intro h
    rw [Nat.mod_eq_of_lt h]

theorem hostPorts_containerOf :
    hostPorts (containerOf server a dataDir) = ["0.0.0.0:" ++ toString (a.port % 65536)] := by
  rw [hostPorts, portBindings_containerOf]
  rfl

end Container

/-! ## Runs of requests -/

section Runs

variable {db db' : Database} {r : AllocationRequest}

/-- What is bound is right as long as every port fits. -/
theorem portsBound_iff : PortsBound db ↔ ∀ a ∈ db.allocations, a.port < 65536 := by
  constructor
  · intro h a ha
    exact bound_iff.mp (h.bound a ha (.withDefaults "" "" "" "" "" "" "" "" "" 0 0 "" "") "")
  · intro h
    refine ⟨fun a ha server dataDir => bound_iff.mpr (h a ha), ?_⟩
    intro a ha b hb hnode hne server server' dataDir
    rw [hostPorts_containerOf, hostPorts_containerOf, Nat.mod_eq_of_lt (h a ha),
      Nat.mod_eq_of_lt (h b hb), List.disjoint_singleton]
    intro hmem
    have heq := (List.mem_singleton.mp hmem).symm
    refine hne (Text.toString_inj ?_)
    simpa [← String.toList_inj] using heq

/-- A request leaves every port bound as it should be exactly when it asks for none that does
not fit. -/
theorem portsBound_step (hdb : PortsBound db) (h : r.step db = some db') :
    PortsBound db' ↔ InRange db r := by
  have hfits := portsBound_iff.mp hdb
  unfold AllocationRequest.step at h
  split at h
  next db' hserve =>
    cases h
    rw [portsBound_iff]
    rcases AllocationRequest.serve_cases hserve with ⟨first, last, hlast, hranged⟩ | ⟨hnone, hports⟩
    · constructor
      · intro hports db'' hserve' last' hlast'
        cases hlast.symm.trans hlast'
        -- otherwise the first port that does not fit is in the table now
        by_contra hge
        obtain ⟨first', hfirst⟩ := hranged.whole
        have hlast'' : (65536 : Rat) ≤ last := not_lt.mp hge
        obtain ⟨x, hx, hport⟩ := hranged.ports (max first' 65536)
          (by rw [hfirst]; exact_mod_cast le_max_left _ _)
          (by rw [Nat.cast_max]; exact max_le (hfirst ▸ hranged.ordered) hlast'')
        have := hports x hx
        omega
      · intro hin x hx
        have hlast' := hin db' hserve last hlast
        rcases hranged.rows x hx with hold | hnew
        · exact hfits x hold
        · exact_mod_cast lt_of_le_of_lt hnew hlast'
    · refine iff_of_true (fun x hx => ?_) fun _ _ last hlast => ?_
      · obtain ⟨a, ha, hport⟩ := hports x hx
        exact hport ▸ hfits a ha
      · rw [hnone] at hlast
        cases hlast
  next e hserve =>
    cases h
    refine iff_of_true hdb fun db' hserve' => ?_
    cases hserve.symm.trans hserve'

/-- From a table in which every port is bound as it should be, the ports stay so through a run
of requests exactly when no accepted request asks for a port beyond sixteen bits. -/
theorem portsBound_iff_inRange (hdb : PortsBound db) (rs : List AllocationRequest) :
    (∀ ks, ks <+: rs → ∀ db', run AllocationRequest.step db ks = some db' → PortsBound db') ↔
      Along AllocationRequest.step InRange db rs := by
  refine always_iff_along (fun db r db' hdb hstep => portsBound_step hdb hstep) ?_ hdb
  intro db r hstep
  unfold AllocationRequest.step at hstep
  split at hstep <;> cases hstep

end Runs

/-! ## A port of seventeen bits -/

section Counterexample

/-- One more port of the node. -/
def onePort (port : Int) : AllocationRequest :=
  .create (fun _ => "c") ⟨"n", "0.0.0.0", port, port⟩

theorem oneServer_portsBound : PortsBound (.oneServer none) := by
  refine portsBound_iff.mpr fun a ha => ?_
  revert a
  decide

theorem portsBound_onePort :
    Always AllocationRequest.step (fun _ => PortsBound) (.oneServer none) [onePort 25567] :=
  (portsBound_iff_inRange oneServer_portsBound [onePort 25567]).mpr
    ⟨fun _ _ _ h => by cases h; decide, fun _ _ => trivial⟩

/-- The panel has given port 25565 to a server. A request for port 91101 is accepted, and a
server on it binds port 25565. -/
theorem portsBound_broken :
    ¬∀ ks, ks <+: [onePort 91101] →
      ∀ db', run AllocationRequest.step (.oneServer none) ks = some db' → PortsBound db' := by
  intro h
  have hthere : ((run AllocationRequest.step (.oneServer none) [onePort 91101]).any fun db' =>
      db'.allocations.rows.any fun x => x.port == 91101) = true := by decide +kernel
  obtain ⟨db', hrun, hany⟩ := (Option.any_eq_true _ _).mp hthere
  obtain ⟨x, hx, hequal⟩ := List.any_eq_true.mp hany
  have hport : x.port = 91101 := beq_iff_eq.mp hequal
  have := portsBound_iff.mp (h _ (List.prefix_refl _) db' hrun) x hx
  omega

end Counterexample

end Joint
