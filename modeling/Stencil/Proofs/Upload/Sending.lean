import Stencil.Proofs.Upload.Adding

/-!
# Sending files

What a host is asked for while files are sent is recorded beside its own state: every file that was
read and every sending that was tried, each with its answer. `Sends` lists what sending the files of
a plan comes to, with the events of it.

Files that were sent stay as they are. Those that wait are sent in order, each as it was read just
before, up to the first that fails; that one and all after it still wait.
-/

namespace Stencil

open Upload

/-! ## Recording -/

/-- What a host was asked for, with its answer. -/
inductive Event where
  | read (path : String) (answer : Except Fault (List UInt8))
  | send (address : String) (octets : List UInt8) (answer : Except String Unit)

namespace Host

variable {ω α : Type}

/-- Acts on a state beside the events so far, and takes note of what happened. -/
def noting (action : StateM ω α) (events : α → List Event) : StateM (ω × List Event) α := fun s =>
  let r := action.run s.1
  (r.1, r.2, s.2 ++ events r.1)

/-- A host that keeps a record of what is read and sent. -/
def recorded (host : Host (StateM ω)) : Host (StateM (ω × List Event)) where
  isPresent path := noting (host.isPresent path) fun _ => []
  read path := noting (host.read path) fun answer => [.read path answer]
  write path octets := noting (host.write path octets) fun _ => []
  readInput := noting host.readInput fun _ => []
  print text := noting (host.print text) fun _ => []
  isTerminal := noting host.isTerminal fun _ => []
  ask question := noting (host.ask question) fun _ => []
  connect := noting host.connect fun _ => []
  send address octets := noting (host.send address octets) fun answer =>
    [.send address octets answer]
  freshSeed := noting host.freshSeed fun _ => []

end Host

/-- The sendings that succeeded, in their order. -/
def Event.puts : List Event → List (String × List UInt8)
  | [] => []
  | .send address octets (.ok ()) :: rest => (address, octets) :: puts rest
  | .send _ _ (.error _) :: rest => puts rest
  | .read _ _ :: rest => puts rest

/-- The sendings of two records are those of both. -/
theorem Event.puts_append (log log' : List Event) : puts (log ++ log') = puts log ++ puts log' := by
  fun_induction puts log with
  | case1 => rfl
  | case2 address octets rest ih => rw [List.cons_append, puts, ih, List.cons_append]
  | case3 address octets message rest ih => rw [List.cons_append, puts, ih]
  | case4 path answer rest ih => rw [List.cons_append, puts, ih]

namespace Upload

variable {ω : Type}

/-- A file after it was sent. -/
def Planned.marked (item : Planned) : Planned := { item with sent := true }

/-! ## One file -/

/-- What sending one file comes to, with the events of it. -/
inductive Attempt (item : Planned) : Except Error Unit → List Event → Prop
  | unreadable {fault} : Attempt item (.error (.unreadable item.source fault))
      [.read item.source (.error fault)]
  | refused {octets message} : Attempt item (.error (.refused item.url.text message))
      [.read item.source (.ok octets), .send item.url.text octets (.error message)]
  | sent {octets} : Attempt item (.ok ())
      [.read item.source (.ok octets), .send item.url.text octets (.ok ())]

/-- A file is read, and only what was read of it is sent. -/
theorem transfer_run (host : Host (StateM ω)) (item : Planned) (w : ω) :
    (Plan.transfer host item).run w =
      match (host.read item.source).run w with
      | (.error fault, w) => (.error (.unreadable item.source fault), w)
      | (.ok octets, w) =>
        match (host.send item.url.text octets).run w with
        | (.error message, w) => (.error (.refused item.url.text message), w)
        | (.ok (), w) => (.ok (), w) := by
  unfold Plan.transfer
  rw [StateT.run_bind]
  generalize (host.read item.source).run w = r
  obtain ⟨fault | octets, w'⟩ := r
  · rfl
  · show StateT.run (host.send item.url.text octets >>= _) w' = _
    rw [StateT.run_bind]
    dsimp only
    generalize (host.send item.url.text octets).run w' = r
    obtain ⟨message | u, w''⟩ := r <;> rfl

/-- Recording does not change how a file is sent. -/
theorem transfer_recorded (host : Host (StateM ω)) (item : Planned) (w : ω) (log : List Event) :
    ∃ es, (Plan.transfer host.recorded item).run (w, log) =
        (((Plan.transfer host item).run w).1, ((Plan.transfer host item).run w).2, log ++ es) ∧
      Attempt item ((Plan.transfer host item).run w).1 es := by
  have hread : (host.recorded.read item.source).run (w, log) =
      (((host.read item.source).run w).1, ((host.read item.source).run w).2,
        log ++ [.read item.source ((host.read item.source).run w).1]) := rfl
  rw [transfer_run, transfer_run, hread]
  generalize (host.read item.source).run w = r
  obtain ⟨fault | octets, w'⟩ := r
  · exact ⟨_, rfl, .unreadable⟩
  · have hsend (log : List Event) : (host.recorded.send item.url.text octets).run (w', log) =
        (((host.send item.url.text octets).run w').1, ((host.send item.url.text octets).run w').2,
          log ++ [.send item.url.text octets ((host.send item.url.text octets).run w').1]) := rfl
    dsimp only
    rw [hsend]
    generalize (host.send item.url.text octets).run w' = r
    obtain ⟨message | u, w''⟩ := r
    · exact ⟨_, by rw [List.append_assoc]; rfl, .refused⟩
    · exact ⟨_, by rw [List.append_assoc]; rfl, .sent⟩

/-! ## All files of a plan -/

/-- What sending the files of a plan comes to, with the events of it: the files afterwards, how many
were sent, and what failed. -/
inductive Sends : List Planned → List Planned × Nat × Option Error → List Event → Prop
  | nil : Sends [] ([], 0, none) []
  | kept {item rest items n failed es} : item.sent = true → Sends rest (items, n, failed) es →
      Sends (item :: rest) (item :: items, n, failed) es
  | failed {item rest e es} : item.sent = false → Attempt item (.error e) es →
      Sends (item :: rest) (item :: rest, 0, some e) es
  | sent {item rest items n failed es es'} : item.sent = false → Attempt item (.ok ()) es →
      Sends rest (items, n, failed) es' →
      Sends (item :: rest) (item.marked :: items, n + 1, failed) (es ++ es')

/-- A file that was sent is passed over. -/
theorem sendAll_sent (host : Host (StateM ω)) {item : Planned} (h : item.sent = true)
    (rest : List Planned) (w : ω) :
    (Plan.sendAll host (item :: rest)).run w =
      match (Plan.sendAll host rest).run w with
      | ((rest, count, failed), w) => ((item :: rest, count, failed), w) := by
  rw [Plan.sendAll, if_pos h]
  rfl

/-- A file that waits is sent, and the others only if that succeeds. -/
theorem sendAll_waiting (host : Host (StateM ω)) {item : Planned} (h : item.sent = false)
    (rest : List Planned) (w : ω) :
    (Plan.sendAll host (item :: rest)).run w =
      match (Plan.transfer host item).run w with
      | (.error e, w) => ((item :: rest, 0, some e), w)
      | (.ok (), w) =>
        match (Plan.sendAll host rest).run w with
        | ((rest, count, failed), w) => ((item.marked :: rest, count + 1, failed), w) := by
  rw [Plan.sendAll, if_neg (by simp [h]), StateT.run_bind]
  generalize (Plan.transfer host item).run w = r
  obtain ⟨e | u, w'⟩ := r <;> rfl

/-- Recording does not change how files are sent. -/
theorem sendAll_recorded (host : Host (StateM ω)) (items : List Planned) (w : ω)
    (log : List Event) :
    ∃ es, (Plan.sendAll host.recorded items).run (w, log) =
        (((Plan.sendAll host items).run w).1, ((Plan.sendAll host items).run w).2, log ++ es) ∧
      Sends items ((Plan.sendAll host items).run w).1 es := by
  induction items generalizing w log with
  | nil => exact ⟨[], by rw [List.append_nil]; rfl, .nil⟩
  | cons item rest ih =>
    by_cases hi : item.sent = true
    · obtain ⟨es, he, hs⟩ := ih w log
      rw [sendAll_sent _ hi, sendAll_sent _ hi, he]
      exact ⟨es, rfl, .kept hi hs⟩
    · rw [Bool.not_eq_true] at hi
      obtain ⟨es, he, ha⟩ := transfer_recorded host item w log
      rw [sendAll_waiting _ hi, sendAll_waiting _ hi, he]
      generalize (Plan.transfer host item).run w = r at ha
      obtain ⟨e | u, w'⟩ := r
      · exact ⟨es, rfl, .failed hi ha⟩
      -- The rest goes on from the machine and the record that the first file leaves.
      · obtain ⟨es', he', hs⟩ := ih w' (log ++ es)
        dsimp only
        rw [he', List.append_assoc]
        exact ⟨es ++ es', rfl, .sent hi ha hs⟩

namespace Sends

/-- Files that were sent before are passed over. -/
theorem of_sent {done waiting : List Planned} (hd : ∀ item ∈ done, item.sent = true)
    {items : List Planned} {n : Nat} {failed : Option Error} {es : List Event}
    (h : Sends (done ++ waiting) (items, n, failed) es) :
    ∃ items', items = done ++ items' ∧ Sends waiting (items', n, failed) es := by
  induction done generalizing items with
  | nil => exact ⟨items, rfl, h⟩
  | cons item rest ih =>
    have hi := hd item List.mem_cons_self
    rw [List.cons_append] at h
    cases h with
    | kept _ h =>
      obtain ⟨items', rfl, h'⟩ := ih (fun i hm => hd i (List.mem_cons_of_mem _ hm)) h
      exact ⟨items', rfl, h'⟩
    | failed hi' _ =>
      rw [hi] at hi'
      cases hi'
    | sent hi' _ _ =>
      rw [hi] at hi'
      cases hi'

/-- Only marks change. -/
theorem map_eq {α : Type} {f : Planned → α} (hf : ∀ item, f item.marked = f item)
    {items items' : List Planned} {n : Nat} {failed : Option Error} {es : List Event}
    (h : Sends items (items', n, failed) es) : items'.map f = items.map f := by
  induction items generalizing items' n es with
  | nil =>
    cases h
    rfl
  | cons item rest ih =>
    cases h with
    | kept _ h => rw [List.map_cons, List.map_cons, ih h]
    | failed _ _ => rfl
    | sent _ _ h => rw [List.map_cons, List.map_cons, ih h, hf]

end Sends

/-! ## Executing -/

/-- What executing comes to, with the events of it. -/
inductive Executes : Uploader → Except Error Nat × Uploader → List Event → Prop
  | forbidden {reason} :
      Executes (.disabled reason) (.error (.forbidden reason), .disabled reason) []
  | idle {p} : (p.pending.isEmpty || !p.online) = true →
      Executes (.enabled p) (.ok 0, .enabled p) []
  | finished {p items n es} : p.pending ≠ [] → p.online = true → Sends p.items (items, n, none) es →
      Executes (.enabled p) (.ok n, .enabled { p with items, stage := .done }) es
  | stopped {p items n e es} : p.pending ≠ [] → p.online = true →
      Sends p.items (items, n, some e) es →
      Executes (.enabled p) (.error e, .enabled { p with items, stage := .planning }) es

/-- An uploader without anything to send does nothing. -/
theorem execute_idle (host : Host (StateM ω)) {p : Plan}
    (h : (p.pending.isEmpty || !p.online) = true) (w : ω) :
    ((Uploader.enabled p).execute host).run w = ((.ok 0, .enabled p), w) := by
  rw [Uploader.execute, StateT.run_bind, Plan.execute, if_pos h]
  rfl

/-- An uploader with something to send sends its files, and is done if nothing fails. -/
theorem execute_sending (host : Host (StateM ω)) {p : Plan}
    (h : (p.pending.isEmpty || !p.online) = false) (w : ω) :
    ((Uploader.enabled p).execute host).run w =
      match (Plan.sendAll host p.items).run w with
      | ((items, n, none), w) => ((.ok n, .enabled { p with items, stage := .done }), w)
      | ((items, _, some e), w) =>
        ((.error e, .enabled { p with items, stage := .planning }), w) := by
  rw [Uploader.execute, StateT.run_bind, Plan.execute, if_neg (by simp [h]), StateT.run_bind]
  generalize (Plan.sendAll host p.items).run w = r
  obtain ⟨⟨items, n, _ | e⟩, w'⟩ := r <;> rfl

/-- Recording does not change how an uploader is executed. -/
theorem execute_recorded (host : Host (StateM ω)) (u : Uploader) (w : ω) (log : List Event) :
    ∃ es, (u.execute host.recorded).run (w, log) =
        (((u.execute host).run w).1, ((u.execute host).run w).2, log ++ es) ∧
      Executes u ((u.execute host).run w).1 es := by
  cases u with
  | disabled reason => exact ⟨[], by rw [List.append_nil]; rfl, .forbidden⟩
  | enabled p =>
    by_cases h : (p.pending.isEmpty || !p.online) = true
    · rw [execute_idle _ h, execute_idle _ h]
      exact ⟨[], by rw [List.append_nil], .idle h⟩
    · rw [Bool.not_eq_true] at h
      have hdue : p.pending ≠ [] ∧ p.online = true := by
        rwa [Bool.or_eq_false_iff, Bool.not_eq_false', List.isEmpty_eq_false_iff] at h
      obtain ⟨es, he, hs⟩ := sendAll_recorded host p.items w log
      rw [execute_sending _ h, execute_sending _ h, he]
      generalize (Plan.sendAll host p.items).run w = r at hs
      obtain ⟨⟨items, n, _ | e⟩, w'⟩ := r
      · exact ⟨es, rfl, .finished hdue.1 hdue.2 hs⟩
      · exact ⟨es, rfl, .stopped hdue.1 hdue.2 hs⟩

/-- Executing changes marks only. -/
theorem Executes.map_eq {α : Type} {f : Planned → α} (hf : ∀ item, f item.marked = f item)
    {u u' : Uploader} {result : Except Error Nat} {es : List Event}
    (h : Executes u (result, u') es) : u'.items.map f = u.items.map f := by
  cases h with
  | forbidden => rfl
  | idle _ => rfl
  | finished _ _ hs => exact hs.map_eq hf
  | stopped _ _ hs => exact hs.map_eq hf

/-- Executing an uploader does not change whether files may be sent. -/
theorem Executes.online {u u' : Uploader} {result : Except Error Nat} {es : List Event}
    (h : Executes u (result, u') es) : u'.online = u.online := by
  cases h <;> rfl

/-- Executing leaves every file at its address and at its place. -/
theorem Executes.placed {u u' : Uploader} {result : Except Error Nat} {es : List Event}
    (h : Executes u (result, u') es) (hu : u.Placed) : u'.Placed := by
  have hmap := h.map_eq (f := fun item => (item.key, item.url)) fun _ => rfl
  cases h with
  | forbidden => exact hu
  | idle _ => exact hu
  | finished _ _ _ => exact hu.of_map_eq hmap .done
  | stopped _ _ _ => exact hu.of_map_eq hmap .planning

/-! ## Reachable uploaders -/

/-- The uploaders that a program can hold: one that is disabled, or one whose plan began without
files, after any additions and executions on any host. -/
inductive Uploader.Reachable : Uploader → Prop
  | disabled (reason : String) : Reachable (.disabled reason)
  | empty (container : Container) (folder : String) (online : Bool) :
      Reachable (.enabled (.empty container folder online))
  | add {u} (source : String) : Reachable u → Reachable (u.add source).2
  | execute {u} {ω : Type} (host : Host (StateM ω)) (w : ω) : Reachable u →
      Reachable ((u.execute host).run w).1.2

/-- The files of every uploader of a program stand at their places. -/
theorem Uploader.Reachable.placed {u : Uploader} (h : u.Reachable) : u.Placed := by
  induction h with
  | disabled reason => exact trivial
  | empty container folder online => exact Plan.placed_empty container folder online
  | add source _ ih => exact placed_add ih source
  | execute host w _ ih =>
    obtain ⟨es, _, he⟩ := execute_recorded host _ w []
    exact he.placed ih

end Upload

end Stencil
