import Stencil.Proofs.Command.Lockstep
import Stencil.Proofs.Upload.Sending

/-!
# Deeds

Everything that a machine is asked for is kept beside its own state, each deed with its answer.
Deeds that leave the world as it is are inquiries: to look and to read at some paths, to read the
input, to draw a seed and to set up what files are sent with. Settings are loaded and inputs are
read by inquiries only, and executing an uploader does nothing but read and send.
-/

namespace Stencil

open Upload

/-- What a machine was asked for, with its answer. -/
inductive Deed where
  | look (path : String) (answer : Bool)
  | input (answer : Except Fault (List UInt8))
  | seed (answer : String)
  | write (path : String) (octets : List UInt8) (answer : Except Fault Unit)
  | print (text : String) (answer : Except Fault Unit)
  | terminal (answer : Bool)
  | ask (question : String) (answer : Except String Bool)
  | connect (answer : Except String Unit)
  | transport (event : Event)

/-- A deed that only asks, and about no other files than those at some paths. -/
def Deed.Inquires (paths : List String) : Deed → Prop
  | .look path _ => path ∈ paths
  | .transport (.read path _) => path ∈ paths
  | .input _ => True
  | .seed _ => True
  | .connect _ => True
  | .write .. => False
  | .print .. => False
  | .terminal _ => False
  | .ask .. => False
  | .transport (.send ..) => False

namespace Host

variable {ω α : Type}

/-- Acts on a state beside the deeds so far, and adds what was done. -/
def keeping (action : StateM ω α) (deed : α → Deed) : StateM (ω × List Deed) α := fun s =>
  let r := action.run s.1
  (r.1, r.2, s.2 ++ [deed r.1])

/-- A host that keeps all its deeds. -/
def chronicled (host : Host (StateM ω)) : Host (StateM (ω × List Deed)) where
  isPresent path := keeping (host.isPresent path) (.look path)
  read path := keeping (host.read path) fun answer => .transport (.read path answer)
  write path octets := keeping (host.write path octets) (.write path octets)
  readInput := keeping host.readInput .input
  print text := keeping (host.print text) (.print text)
  isTerminal := keeping host.isTerminal .terminal
  ask question := keeping (host.ask question) (.ask question)
  connect := keeping host.connect .connect
  send address octets := keeping (host.send address octets) fun answer =>
    .transport (.send address octets answer)
  freshSeed := keeping host.freshSeed .seed

end Host

variable {ω α : Type} {paths : List String} {log : List Deed}

/-! ## Inquiries -/

/-- A machine and one that keeps its deeds, of which those since some time are inquiries. -/
def Inquiring (paths : List String) (log : List Deed) (s : ω) (t : ω × List Deed) : Prop :=
  t.1 = s ∧ ∃ inquiries, t.2 = log ++ inquiries ∧ ∀ d ∈ inquiries, d.Inquires paths

theorem inquiring_start (w : ω) : Inquiring paths log w (w, log) :=
  ⟨rfl, [], (List.append_nil log).symm, nofun⟩

/-- An action whose deed is an inquiry leaves the deeds so far and inquiries after them. -/
theorem lockstep_keeping (action : StateM ω α) {deed : α → Deed}
    (h : ∀ a, (deed a).Inquires paths) :
    Lockstep (Inquiring paths log) action (Host.keeping action deed) := by
  rintro s ⟨w, deeds⟩ ⟨rfl, inquiries, rfl, hall⟩
  refine ⟨rfl, rfl, inquiries ++ [deed (action.run w).1], List.append_assoc .., ?_⟩
  intro d hd
  rcases List.mem_append.mp hd with hd | hd
  · exact hall d hd
  · obtain rfl := List.mem_singleton.mp hd
    exact h _

/-- Keeping deeds does not change how settings are loaded, and loading only inquires. -/
theorem loadAlike_chronicled (host : Host (StateM ω)) {file : String}
    (hpaths : ∀ path ∈ Settings.sources file, path ∈ paths) :
    Settings.LoadAlike (Inquiring paths log) host host.chronicled file where
  look path hpath := lockstep_keeping _ fun _ => hpaths path hpath
  read path hpath := lockstep_keeping _ fun _ => hpaths path hpath
  readInput := lockstep_keeping _ fun _ => trivial

/-- Drawing a seed is an inquiry. -/
theorem lockstep_freshSeed_chronicled (host : Host (StateM ω)) :
    Lockstep (Inquiring paths log) host.freshSeed host.chronicled.freshSeed :=
  lockstep_keeping _ fun _ => trivial

/-! ## Sending -/

/-- A machine with a record and one that keeps its deeds, of which those since some time are the
events of the record. -/
def Transporting (log : List Deed) (s : ω × List Event) (t : ω × List Deed) : Prop :=
  t.1 = s.1 ∧ t.2 = log ++ s.2.map .transport

/-- What is noted as an event is kept as the deed of that event. -/
theorem lockstep_transport (action : StateM ω α) (event : α → Event) :
    Lockstep (Transporting log) (Host.noting action fun a => [event a])
      (Host.keeping action fun a => .transport (event a)) := by
  rintro ⟨w, events⟩ ⟨w', deeds⟩ ⟨hw, hdeeds⟩
  obtain rfl : w' = w := hw
  obtain rfl : deeds = log ++ events.map .transport := hdeeds
  refine ⟨rfl, rfl, ?_⟩
  show (log ++ events.map .transport) ++ [Deed.transport _] =
    log ++ (events ++ [_]).map Deed.transport
  rw [List.map_append, List.append_assoc]
  rfl

/-- Keeping deeds does not change how an uploader is executed, and all of them are events of it. -/
theorem execute_chronicled (host : Host (StateM ω)) (u : Uploader) (w : ω) (log : List Deed) :
    ∃ es, (u.execute host.chronicled).run (w, log) =
        (((u.execute host).run w).1, ((u.execute host).run w).2, log ++ es.map .transport) ∧
      Executes u ((u.execute host).run w).1 es := by
  obtain ⟨es, hrun, hes⟩ := execute_recorded host u w []
  have hstep : Lockstep (Transporting log) (u.execute host.recorded) (u.execute host.chronicled) :=
    lockstep_execute (fun _ => lockstep_transport _ _) (fun _ _ => lockstep_transport _ _) u
  have hstart : Transporting log (w, []) (w, log) := ⟨rfl, (List.append_nil log).symm⟩
  obtain ⟨hanswer, hmachine, hdeeds⟩ := hstep _ _ hstart
  rw [hrun] at hanswer hmachine hdeeds
  exact ⟨es, Prod.ext hanswer.symm (Prod.ext hmachine hdeeds), hes⟩

end Stencil
