import Stencil.Proofs.Command.Lockstep
import Stencil.Proofs.Template.Reference
import Stencil.Proofs.Upload.Sending

/-!
# Histories of an uploader

Files are added to an uploader, by commands or by templates, and it is executed, over and over,
while the machine changes as it likes and reading and sending fail as they like. At any time the
files that were sent stand before those that wait, and the sendings that succeeded are those of the
files that were sent, one for each and in their order, each with the content that was read just
before. Whatever receives them sees the same.
-/

namespace Stencil.Upload

open Template (Domain Registry Subject)

variable {ω : Type}

/-! ## The ledger -/

/-- The record of some deliveries, each of a file with its content, among attempts that failed. -/
inductive Ledger : List (Planned × List UInt8) → List Event → Prop
  | nil : Ledger [] []
  | sent {ds log item octets} : Ledger ds log → Ledger (ds ++ [(item, octets)])
      (log ++ [.read item.source (.ok octets), .send item.url.text octets (.ok ())])
  | failed {ds log item e es} : Ledger ds log → Attempt item (.error e) es → Ledger ds (log ++ es)

/-- A file goes to its address. -/
def put (d : Planned × List UInt8) : String × List UInt8 := (d.1.url.text, d.2)

/-- The sendings that succeeded are the deliveries. -/
theorem Ledger.puts {ds : List (Planned × List UInt8)} {log : List Event} (h : Ledger ds log) :
    Event.puts log = ds.map put := by
  induction h with
  | nil => rfl
  | sent _ ih =>
    rw [Event.puts_append, ih, List.map_append]
    rfl
  | failed _ ha ih =>
    rw [Event.puts_append, ih]
    cases ha <;> simp [Event.puts]

/-- The events of some deliveries, and of nothing else. -/
def deliveries (ds : List (Planned × List UInt8)) : List Event :=
  ds.flatMap fun d => [.read d.1.source (.ok d.2), .send d.1.url.text d.2 (.ok ())]

/-- Deliveries are added to a ledger by their events. -/
theorem Ledger.deliver {ds : List (Planned × List UInt8)} {log : List Event} (h : Ledger ds log)
    (new : List (Planned × List UInt8)) : Ledger (ds ++ new) (log ++ deliveries new) := by
  induction new generalizing ds log with
  | nil =>
    rw [deliveries, List.flatMap_nil, List.append_nil, List.append_nil]
    exact h
  | cons d rest ih =>
    have hsent : Ledger (ds ++ [d])
        (log ++ [.read d.1.source (.ok d.2), .send d.1.url.text d.2 (.ok ())]) := h.sent
    have hrest := ih hsent
    rwa [List.append_assoc, List.append_assoc] at hrest

/-- What sending the waiting files answers, with the events of it: some of them were delivered, and
then either nothing more happened or the attempt at the first of the rest failed. -/
inductive Outcome (new : List (Planned × List UInt8)) (rest : List Planned) :
    Option Error → List Event → Prop
  | complete : rest = [] → Outcome new rest none (deliveries new)
  | stopped {item later e es} : rest = item :: later → Attempt item (.error e) es →
      Outcome new rest (some e) (deliveries new ++ es)

/-- What sending files that wait comes to: the first of them are delivered and the rest still
wait. -/
structure Progress (waiting items : List Planned) (n : Nat) (failed : Option Error)
    (es : List Event) (new : List (Planned × List UInt8)) (rest : List Planned) : Prop where
  before : waiting = new.map (·.1) ++ rest
  after : items = new.map (·.1.marked) ++ rest
  count : n = new.length
  outcome : Outcome new rest failed es

/-- A file that is delivered before others comes first among the deliveries. -/
theorem Outcome.cons {new : List (Planned × List UInt8)} {rest : List Planned}
    {failed : Option Error} {es : List Event} (h : Outcome new rest failed es)
    (d : Planned × List UInt8) :
    Outcome (d :: new) rest failed
      ([.read d.1.source (.ok d.2), .send d.1.url.text d.2 (.ok ())] ++ es) := by
  cases h with
  | complete hrest => exact .complete hrest
  | stopped hrest ha => exact .stopped hrest ha

/-- An attempt at every file that waits, until one fails, is added to a ledger. -/
theorem Outcome.ledger {new ds : List (Planned × List UInt8)} {rest : List Planned}
    {failed : Option Error} {es log : List Event} (h : Outcome new rest failed es)
    (hl : Ledger ds log) : Ledger (ds ++ new) (log ++ es) := by
  cases h with
  | complete _ => exact hl.deliver new
  | stopped _ ha =>
    rw [← List.append_assoc]
    exact .failed (hl.deliver new) ha

/-- Sending goes through the files that wait, in their order, up to the first that fails. -/
theorem Sends.progress {waiting items : List Planned} (hw : ∀ item ∈ waiting, item.sent = false)
    {n : Nat} {failed : Option Error} {es : List Event} (h : Sends waiting (items, n, failed) es) :
    ∃ new rest, Progress waiting items n failed es new rest := by
  induction waiting generalizing items n es with
  | nil =>
    cases h
    exact ⟨[], [], rfl, rfl, rfl, .complete rfl⟩
  | cons item later ih =>
    have hi := hw item List.mem_cons_self
    cases h with
    | kept hi' _ =>
      rw [hi] at hi'
      cases hi'
    | failed _ ha =>
      have hstopped : Outcome [] (item :: later) (some _) (deliveries [] ++ es) := .stopped rfl ha
      exact ⟨[], item :: later, rfl, rfl, rfl, hstopped⟩
    | sent _ ha hs =>
      cases ha with
      | @sent octets =>
        obtain ⟨new, rest, hp⟩ := ih (fun i hmem => hw i (List.mem_cons_of_mem _ hmem)) hs
        refine ⟨(item, octets) :: new, rest, ?_, ?_, ?_, hp.outcome.cons (item, octets)⟩
        · rw [List.map_cons, List.cons_append, ← hp.before]
        · rw [List.map_cons, List.cons_append, ← hp.after]
        · rw [List.length_cons, ← hp.count]

/-! ## Rendering over an uploader -/

section

variable (answer : Domain → String → Except Template.Error String) (ns : Namespace)

/-- A standard function adds files at most. -/
theorem adds_call {name : String} {f : Template.Function Uploader}
    (hf : Table.get? name (Registry.answering answer Uploader.register ns) = some f)
    (args : List String) (u : Uploader) : u.Adds (f.call args u).2 := by
  rcases Registry.get?_standard hf with h | h | h | h | h | h | h <;> rw [h.2]
  all_goals try exact .refl
  exact .single ⟨_, rfl⟩

/-- A session adds files at most. -/
theorem adds_after (u : Uploader) (subject : Subject) :
    u.Adds (subject.after (.answering answer Uploader.register ns) u) := by
  have hk : Template.Keeps (.answering answer Uploader.register ns) (fun _ _ _ => True)
      fun s s' => s.world.Adds s'.world :=
    { refl := fun _ => .refl
      trans := .trans
      record := fun _ _ => .refl
      plain := fun _ hf _ => adds_call answer ns hf _ _
      finish := fun _ ho h _ => (adds_call answer ns ho.found _ _).trans h }
  rw [Subject.after_eq]
  exact hk.session _ subject fun _ _ _ _ => trivial

end

/-! ## Histories -/

/-- An uploader, the machine that it is executed on, and the record of what was read and sent. -/
structure Scene (ω : Type) where
  uploader : Uploader
  machine : ω
  log : List Event

/-- What can happen to an uploader: a file is added by a command or for a template, a text or a
document is rendered over it, it is executed, or its machine changes by itself. -/
inductive Operation (ω : Type) : Type 1
  | add (source : String)
  | register (source : String)
  | render (answer : Domain → String → Except Template.Error String) (ns : Namespace)
      (subject : Subject)
  | execute
  | disturb (change : ω → ω)

namespace Scene

variable (host : Host (StateM ω))

/-- A scene with a plan without files. -/
def start (container : Container) (folder : String) (online : Bool) (machine : ω) : Scene ω :=
  ⟨.enabled (.empty container folder online), machine, []⟩

/-- Executes the uploader on its machine. -/
def execute (s : Scene ω) : Except Error Nat × Scene ω :=
  let r := (s.uploader.execute host.recorded).run (s.machine, s.log)
  (r.1.1, ⟨r.1.2, r.2.1, r.2.2⟩)

/-- The scene after something happened. -/
def step (s : Scene ω) : Operation ω → Scene ω
  | .add source => { s with uploader := (s.uploader.add source).2 }
  | .register source => { s with uploader := (s.uploader.register source).2 }
  | .render answer ns subject =>
    { s with uploader := subject.after (.answering answer Uploader.register ns) s.uploader }
  | .execute => (s.execute host).2
  | .disturb change => { s with machine := change s.machine }

/-- The scene after a history. -/
def run (s : Scene ω) (history : List (Operation ω)) : Scene ω :=
  history.foldl (step host) s

/-- Executing changes the uploader as on the machine alone, and records the events of it. -/
theorem executes (s : Scene ω) : ∃ es,
    Executes s.uploader ((s.execute host).1, (s.execute host).2.uploader) es ∧
      (s.execute host).2.log = s.log ++ es := by
  obtain ⟨es, he, hx⟩ := execute_recorded host s.uploader s.machine s.log
  refine ⟨es, ?_, ?_⟩
  · simp only [execute, he]
    exact hx
  · simp only [execute, he]

/-- Every operation adds files, executes the uploader, or leaves it alone. -/
theorem step_cases (s : Scene ω) (op : Operation ω) :
    (s.uploader.Adds (s.step host op).uploader ∧ (s.step host op).log = s.log) ∨
      ∃ result es, Executes s.uploader (result, (s.step host op).uploader) es ∧
        (s.step host op).log = s.log ++ es := by
  cases op with
  | add source => exact .inl ⟨.single ⟨source, rfl⟩, rfl⟩
  | register source => exact .inl ⟨.single ⟨source, rfl⟩, rfl⟩
  | render answer ns subject => exact .inl ⟨adds_after answer ns s.uploader subject, rfl⟩
  | execute =>
    obtain ⟨es, hx, hlog⟩ := s.executes host
    exact .inr ⟨_, es, hx, hlog⟩
  | disturb change => exact .inl ⟨.refl, rfl⟩

/-- Files stay at their addresses and at their places. -/
theorem placed_step {s : Scene ω} (h : s.uploader.Placed) (op : Operation ω) :
    (s.step host op).uploader.Placed := by
  rcases s.step_cases host op with ⟨ha, _⟩ | ⟨result, es, hx, _⟩
  · exact ha.keeps (P := Uploader.Placed) (fun _ source hu => Uploader.placed_add hu source) h
  · exact hx.placed h

/-- Every history keeps the files in their places. -/
theorem placed_run {s : Scene ω} (h : s.uploader.Placed) (history : List (Operation ω)) :
    (s.run host history).uploader.Placed := by
  induction history generalizing s with
  | nil => exact h
  | cons op rest ih => exact ih (placed_step host h op)

end Scene

/-! ## What holds at any time -/

/-- The account of a scene: the files that were delivered, each with its content, and those that
wait. All files have keys of their own; nothing is read or sent while the uploader is offline. -/
structure Account (s : Scene ω) (ds : List (Planned × List UInt8)) (waiting : List Planned) :
    Prop where
  enabled : ∃ p, s.uploader = .enabled p
  items : s.uploader.items = ds.map (·.1.marked) ++ waiting
  waiting : ∀ item ∈ waiting, item.sent = false
  ledger : Ledger ds s.log
  puts : Event.puts s.log = ds.map put
  distinct : (s.uploader.items.map (·.key)).Nodup
  offline : s.uploader.online = false → s.log = [] ∧ ds = []

/-- What executing answers, with the events of it, where some files were delivered and the rest
still wait. An error is that of the attempt at the first of the rest, which came last. -/
def Answered (online : Bool) (new : List (Planned × List UInt8)) (rest : List Planned)
    (es : List Event) : Except Error Nat → Prop
  | .ok n => n = new.length ∧ es = deliveries new ∧ (online = true → rest = [])
  | .error e => ∃ item later last, rest = item :: later ∧ es = deliveries new ++ last ∧
      Attempt item (.error e) last

/-- A file as it was registered. -/
def Planned.registered (item : Planned) : Planned := { item with sent := false }

namespace Account

variable {s s' : Scene ω} {ds : List (Planned × List UInt8)} {waiting : List Planned}

theorem start (container : Container) (folder : String) (online : Bool) (machine : ω) :
    Account (Scene.start container folder online machine) [] [] :=
  ⟨⟨_, rfl⟩, rfl, by simp, .nil, rfl, List.nodup_nil, fun _ => ⟨rfl, rfl⟩⟩

/-- Files that are added wait after all others. -/
theorem add (h : Account s ds waiting) (hp : s.uploader.Placed) (ha : s.uploader.Adds s'.uploader)
    (hl : s'.log = s.log) : ∃ waiting', Account s' ds waiting' := by
  obtain ⟨new, hnew, hw⟩ := ha.items
  have hen : ∃ p, s'.uploader = .enabled p := by
    refine ha.keeps (P := fun u => ∃ p, u = .enabled p) ?_ h.enabled
    rintro u source ⟨p, rfl⟩
    rcases Uploader.add_cases (.enabled p) source with he | ⟨_, _, _, _, _, _, _, _, he⟩
    · exact ⟨p, he⟩
    · exact ⟨_, he⟩
  have hdistinct := (ha.keeps (P := fun u => u.Placed ∧ (u.items.map (·.key)).Nodup)
    (fun _ source hu => ⟨Uploader.placed_add hu.1 source, Uploader.nodup_keys_add hu.1 hu.2 source⟩)
    ⟨hp, h.distinct⟩).2
  refine ⟨waiting ++ new, hen, ?_, fun item hmem => ?_, ?_, ?_, hdistinct, fun hoff => ?_⟩
  · rw [hnew, h.items, List.append_assoc]
  · exact (List.mem_append.1 hmem).elim (h.waiting item) (hw item)
  · rw [hl]
    exact h.ledger
  · rw [hl, h.puts]
  · rw [hl]
    exact h.offline (ha.online.symm.trans hoff)

/-- The files that wait are those that were not sent. -/
theorem pending (h : Account s ds waiting) : s.uploader.pending = waiting := by
  rw [Uploader.pending, h.items, List.filter_append]
  have hsent : (ds.map (·.1.marked)).filter (!·.sent) = [] := by
    rw [List.filter_eq_nil_iff]
    intro item hmem
    obtain ⟨d, _, rfl⟩ := List.mem_map.1 hmem
    simp [Planned.marked]
  rw [hsent, List.nil_append, List.filter_eq_self]
  intro item hmem
  rw [h.waiting item hmem]
  rfl

/-- Sending the files of a plan delivers the first of those that wait. -/
theorem deliver (h : Account s ds waiting) {items : List Planned} {n : Nat}
    {failed : Option Error} {es : List Event} {p : Plan}
    (hs : Sends s.uploader.items (items, n, failed) es) (hp : s'.uploader = .enabled p)
    (hitems : p.items = items) (honline : p.online = true) (hl : s'.log = s.log ++ es) :
    ∃ new rest, waiting = new.map (·.1) ++ rest ∧ Account s' (ds ++ new) rest ∧ n = new.length ∧
      Outcome new rest failed es := by
  have hkeys : items.map (·.key) = s.uploader.items.map (·.key) := hs.map_eq fun _ => rfl
  -- What was delivered is passed over, so only the files that wait are tried.
  rw [h.items] at hs
  obtain ⟨items', rfl, hs'⟩ := hs.of_sent fun item hmem => by
    obtain ⟨d, _, rfl⟩ := List.mem_map.1 hmem
    rfl
  obtain ⟨new, rest, hprog⟩ := hs'.progress h.waiting
  have hrest : ∀ item ∈ rest, item.sent = false := fun item hmem =>
    h.waiting item (by rw [hprog.before]; exact List.mem_append_right _ hmem)
  have hledger : Ledger (ds ++ new) s'.log := by
    rw [hl]
    exact hprog.outcome.ledger h.ledger
  have hafter : s'.uploader.items = (ds ++ new).map (·.1.marked) ++ rest := by
    rw [hp, Uploader.items, hitems, hprog.after, List.map_append, List.append_assoc]
  refine ⟨new, rest, hprog.before, ⟨⟨p, hp⟩, hafter, hrest, hledger, hledger.puts, ?_, ?_⟩,
    hprog.count, hprog.outcome⟩
  · rw [hp, Uploader.items, hitems, hkeys]
    exact h.distinct
  · intro hoff
    rw [hp, Uploader.online, honline] at hoff
    cases hoff

/-- Executing delivers the first of the files that wait, and answers how many or what failed. -/
theorem execute (h : Account s ds waiting) {result : Except Error Nat} {es : List Event}
    (hx : Executes s.uploader (result, s'.uploader) es) (hl : s'.log = s.log ++ es) :
    ∃ new rest, waiting = new.map (·.1) ++ rest ∧ Account s' (ds ++ new) rest ∧
      Answered s.uploader.online new rest es result := by
  obtain ⟨p, hp⟩ := h.enabled
  have hpending := h.pending
  generalize hu' : s'.uploader = u' at hx
  rw [hp] at hx
  -- Either there is nothing to do, or some of the waiting files are delivered, up to a failure if
  -- any.
  cases hx with
  | idle hidle =>
    have hsame : s'.uploader = s.uploader := hu'.trans hp.symm
    rw [List.append_nil] at hl
    refine ⟨[], waiting, rfl, ?_, rfl, rfl, fun honline => ?_⟩
    · rw [List.append_nil]
      exact ⟨⟨p, hu'⟩, hsame ▸ h.items, h.waiting, hl ▸ h.ledger, hl ▸ h.puts,
        hsame ▸ h.distinct, fun hoff => hl ▸ h.offline (hsame ▸ hoff)⟩
    · rw [hp] at honline hpending
      have hp' : p.online = true := honline
      have hempty : p.pending = [] := by simpa [hp'] using hidle
      exact hpending.symm.trans hempty
  | finished _ honline hs =>
    obtain ⟨new, rest, hw, ha, hn, hout⟩ :=
      h.deliver (by rw [hp]; exact hs) hu' rfl honline hl
    cases hout with
    | complete hrest => exact ⟨new, rest, hw, ha, hn, rfl, fun _ => hrest⟩
  | stopped _ honline hs =>
    obtain ⟨new, rest, hw, ha, _, hout⟩ :=
      h.deliver (by rw [hp]; exact hs) hu' rfl honline hl
    cases hout with
    | stopped hrest hlast => exact ⟨new, rest, hw, ha, _, _, _, hrest, rfl, hlast⟩

/-- Every operation keeps the account, and adds deliveries at most. -/
theorem step (host : Host (StateM ω)) (h : Account s ds waiting) (hp : s.uploader.Placed)
    (op : Operation ω) : ∃ new waiting', Account (s.step host op) (ds ++ new) waiting' := by
  rcases s.step_cases host op with ⟨ha, hl⟩ | ⟨result, es, hx, hl⟩
  · obtain ⟨waiting', h'⟩ := h.add hp ha hl
    exact ⟨[], waiting', by rwa [List.append_nil]⟩
  · obtain ⟨new, rest, _, h', _⟩ := h.execute hx hl
    exact ⟨new, rest, h'⟩

/-- Every history is accounted for, by more deliveries after those that were made. -/
theorem run (host : Host (StateM ω)) (h : Account s ds waiting) (hp : s.uploader.Placed)
    (history : List (Operation ω)) :
    ∃ new waiting', Account (s.run host history) (ds ++ new) waiting' := by
  induction history generalizing s ds waiting with
  | nil => exact ⟨[], waiting, by rwa [List.append_nil]⟩
  | cons op rest ih =>
    obtain ⟨new, waiting', h'⟩ := h.step host hp op
    obtain ⟨new', waiting'', h''⟩ := ih h' (Scene.placed_step host hp op)
    exact ⟨new ++ new', waiting'', by rwa [← List.append_assoc]⟩

end Account

/-- Files keep their order of registration: a later scene has the files of an earlier one, and new
ones after them. -/
theorem Scene.registered_step (host : Host (StateM ω)) (s : Scene ω) (op : Operation ω) :
    s.uploader.items.map Planned.registered <+:
      (s.step host op).uploader.items.map Planned.registered := by
  rcases s.step_cases host op with ⟨ha, _⟩ | ⟨result, es, hx, _⟩
  · obtain ⟨new, hnew, _⟩ := ha.items
    rw [hnew, List.map_append]
    exact List.prefix_append _ _
  · have hsame := hx.map_eq (f := Planned.registered) fun _ => rfl
    exact hsame ▸ List.prefix_rfl

/-- Files that were registered stay so, in their order. -/
theorem Scene.registered_run (host : Host (StateM ω)) (s : Scene ω)
    (history : List (Operation ω)) : s.uploader.items.map Planned.registered <+:
      (s.run host history).uploader.items.map Planned.registered := by
  induction history generalizing s with
  | nil => exact List.prefix_rfl
  | cons op rest ih => exact (s.registered_step host op).trans (ih (s.step host op))

/-- Whether files may be sent never changes. -/
theorem Scene.online_run (host : Host (StateM ω)) (s : Scene ω) (history : List (Operation ω)) :
    (s.run host history).uploader.online = s.uploader.online := by
  induction history generalizing s with
  | nil => rfl
  | cons op rest ih =>
    refine (ih (s.step host op)).trans ?_
    rcases s.step_cases host op with ⟨ha, _⟩ | ⟨result, es, hx, _⟩
    · exact ha.online
    · exact hx.online

/-! ## The receiver -/

/-- What has arrived of a machine's sendings: one that succeeds arrives last, and neither one that
fails nor reading a file changes anything. -/
structure Receives (host : Host (StateM ω)) (arrived : ω → List (String × List UInt8)) : Prop where
  read : ∀ path w, arrived ((host.read path).run w).2 = arrived w
  sent : ∀ address octets w, ((host.send address octets).run w).1 = .ok () →
    arrived ((host.send address octets).run w).2 = arrived w ++ [(address, octets)]
  refused : ∀ address octets w message, ((host.send address octets).run w).1 = .error message →
    arrived ((host.send address octets).run w).2 = arrived w

namespace Receives

variable {host : Host (StateM ω)} {arrived : ω → List (String × List UInt8)}
  {before : List (String × List UInt8)}

/-- One machine with a record, where what arrived since some time is what the record says. -/
def Told (arrived : ω → List (String × List UInt8)) (before : List (String × List UInt8))
    (s t : ω × List Event) : Prop :=
  s = t ∧ arrived t.1 = before ++ Event.puts t.2

/-- Executing records what arrives. -/
theorem execute (h : Receives host arrived) (s : Scene ω)
    (hs : arrived s.machine = before ++ Event.puts s.log) :
    arrived (s.execute host).2.machine = before ++ Event.puts (s.execute host).2.log := by
  have hread (path : String) : Lockstep (Told arrived before) (host.recorded.read path)
      (host.recorded.read path) := by
    rintro ⟨w, log⟩ _ ⟨rfl, hw⟩
    refine ⟨rfl, rfl, (h.read path w).trans ?_⟩
    show arrived w = before ++ Event.puts (log ++ [.read path _])
    rw [Event.puts_append, Event.puts, Event.puts, List.append_nil]
    exact hw
  have hsend (address : String) (octets : List UInt8) : Lockstep (Told arrived before)
      (host.recorded.send address octets) (host.recorded.send address octets) := by
    rintro ⟨w, log⟩ _ ⟨rfl, hw⟩
    refine ⟨rfl, rfl, ?_⟩
    show arrived ((host.send address octets).run w).2 =
      before ++ Event.puts (log ++ [.send address octets ((host.send address octets).run w).1])
    cases hanswer : ((host.send address octets).run w).1 with
    | ok _ =>
      rw [h.sent address octets w hanswer, Event.puts_append, Event.puts, Event.puts,
        ← List.append_assoc, ← hw]
    | error message =>
      rw [h.refused address octets w message hanswer, Event.puts_append, Event.puts, Event.puts,
        List.append_nil]
      exact hw
  exact (lockstep_execute hread hsend s.uploader (s.machine, s.log) _ ⟨rfl, hs⟩).2.2

/-- What arrives over a history is what the record says, if nothing but executing changes it. -/
theorem run (h : Receives host arrived) (s : Scene ω) (history : List (Operation ω))
    (hquiet : ∀ change, .disturb change ∈ history → ∀ w, arrived (change w) = arrived w)
    (hs : arrived s.machine = before ++ Event.puts s.log) :
    arrived (s.run host history).machine = before ++ Event.puts (s.run host history).log := by
  induction history generalizing s with
  | nil => exact hs
  | cons op rest ih =>
    refine ih (s.step host op) (fun change hmem => hquiet change (List.mem_cons_of_mem _ hmem)) ?_
    cases op with
    | add source => exact hs
    | register source => exact hs
    | render answer ns subject => exact hs
    | execute => exact h.execute s hs
    | disturb change => exact (hquiet change List.mem_cons_self s.machine).trans hs

end Receives

/-- What was sent from a workspace has arrived. -/
theorem receives_workspace (limits : Limits) :
    Receives (Workspace.hostWithin limits) Workspace.sent where
  read _ _ := rfl
  sent address octets w h := by
    unfold Workspace.hostWithin StateT.run at h ⊢
    dsimp only at h ⊢
    split at h
    · cases h
    · rw [if_neg ‹_›]
  refused address octets w message h := by
    unfold Workspace.hostWithin StateT.run at h ⊢
    dsimp only at h ⊢
    split at h
    · rw [if_pos ‹_›]
    · cases h

/-! ## Delivery -/

/-- After any history the files that were sent stand before those that wait, in the order of
registration, and the sendings that succeeded are theirs, one for each, with the content read just
before; nothing else arrives. Executing then delivers the first of those that wait, and answers how
many or what failed; what happens later adds to this at the end. Offline, nothing is ever read, sent
or marked. -/
theorem delivered_once (host : Host (StateM ω)) (container : Container) (folder : String)
    (online : Bool) (machine : ω) (history : List (Operation ω)) :
    let s := (Scene.start container folder online machine).run host history
    ∃ ds waiting, Account s ds waiting ∧
      (∃ es new rest, waiting = new.map (·.1) ++ rest ∧ (s.execute host).2.log = s.log ++ es ∧
        Account (s.execute host).2 (ds ++ new) rest ∧
        Answered online new rest es (s.execute host).1) ∧
      (∀ later, (∃ new waiting', Account (s.run host later) (ds ++ new) waiting') ∧
        s.uploader.items.map Planned.registered <+:
          (s.run host later).uploader.items.map Planned.registered) ∧
      (online = false → s.log = [] ∧ ∀ item ∈ s.uploader.items, item.sent = false) ∧
      ∀ arrived, Receives host arrived →
        (∀ change, .disturb change ∈ history → ∀ w, arrived (change w) = arrived w) →
        arrived s.machine = arrived machine ++ ds.map put := by
  intro s
  have hstart : (Scene.start container folder online machine).uploader.Placed :=
    Plan.placed_empty container folder online
  -- Every clause is read off the account that the whole history keeps.
  obtain ⟨ds, waiting, h⟩ := (Account.start container folder online machine).run host hstart history
  rw [List.nil_append] at h
  have hp : s.uploader.Placed := Scene.placed_run host hstart history
  have honline : s.uploader.online = online := Scene.online_run host _ history
  obtain ⟨es, hx, hl⟩ := s.executes host
  refine ⟨ds, waiting, h, ?_, fun later => ⟨h.run host hp later, s.registered_run host later⟩,
    fun hoff => ?_, fun arrived harrived hquiet => ?_⟩
  · obtain ⟨new, rest, hwaiting, haccount, hanswered⟩ := h.execute hx hl
    exact ⟨es, new, rest, hwaiting, hl, haccount, honline ▸ hanswered⟩
  · obtain ⟨hlog, rfl⟩ := h.offline (honline.trans hoff)
    refine ⟨hlog, fun item hmem => h.waiting item ?_⟩
    rw [h.items] at hmem
    exact hmem
  · rw [← h.puts]
    exact harrived.run _ history hquiet (List.append_nil _).symm

/-- A file that is added and sent has arrived where it belongs. -/
theorem delivered_once_workspace :
    let container : Container :=
      ⟨⟨"https".toList, some ⟨[], .name "store".toList, none⟩, .segments [[]], none, none⟩, "files"⟩
    let machine : Workspace := { files := [(["a"], .file [104, 105])] }
    ∃ ds waiting,
      Account ((Scene.start container "run" true machine).run Workspace.host [.add "a", .execute])
          ds waiting ∧
        ds.map put = [("https://store/files/run/a", [104, 105])] := by
  intro container machine
  obtain ⟨ds, waiting, haccount, -, -, -, harrives⟩ :=
    delivered_once Workspace.host container "run" true machine [.add "a", .execute]
  have hds := harrives Workspace.sent (receives_workspace {}) (by simp)
  have hsent : ((Scene.start container "run" true machine).run Workspace.host
      [.add "a", .execute]).machine.sent = [("https://store/files/run/a", [104, 105])] := by
    decide +kernel
  exact ⟨ds, waiting, haccount, hds.symm.trans hsent⟩

end Stencil.Upload
