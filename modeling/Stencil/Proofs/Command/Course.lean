import Stencil.Proofs.Command.Stages

/-!
# Courses of a run

A command that has prepared its output writes it, once. Only after that it asks whether to send the
files that the input mentions, and only then are they read and sent. `Course` lists how a whole run
can go, with everything that the machine is asked for, and a run of the program follows one of these
courses on every machine.

What an ending says about the machine is read off the course. Nothing that only writing, printing
and sending may change is changed if the exit code is that of the arguments, the settings or a
template. With the code of a failure of no particular kind the output may be there in part, or as a
whole if nobody could be asked afterwards.
-/

namespace Stencil

namespace Command

open Settings (Environment Resolved)
open Upload (Executes Uploader)

variable {ω : Type} (host : Host (StateM ω)) (env : Environment) (o : Options) (work : Work)

/-! ## Sending -/

/-- How asking whether to go on goes: the answer and the deeds. -/
inductive Confirms (question : String) : Except String Bool → List Deed → Prop
  | settled : (o.assumeYes || o.quiet) = true → Confirms question (.ok true) []
  | unattended : (o.assumeYes || o.quiet) = false → Confirms question (.ok true) [.terminal false]
  | asked {answer} : (o.assumeYes || o.quiet) = false →
      Confirms question answer [.terminal true, .ask question answer]

/-- How sending the files of an uploader goes, after asking: the ending of the program, the machine
afterwards and the deeds. -/
inductive Uploads (u : Uploader) : ω → Ending → ω → List Deed → Prop
  | nothing {w} : u.pending = [] → Uploads u w ⟨0, none⟩ w []
  | unasked {w reason w' asking} : u.pending ≠ [] →
      (confirm host o (uploadQuestion u)).run w = (.error reason, w') →
      Confirms o (uploadQuestion u) (.error reason) asking →
      Uploads u w ⟨1, some (Failure.asking reason).message⟩ w' asking
  | declined {w w' asking} : u.pending ≠ [] →
      (confirm host o (uploadQuestion u)).run w = (.ok false, w') →
      Confirms o (uploadQuestion u) (.ok false) asking →
      Uploads u w ⟨5, some (Failure.uploader .cancelled).message⟩ w' asking
  | halted {w w₁ e u' w' asking es} : u.pending ≠ [] →
      (confirm host o (uploadQuestion u)).run w = (.ok true, w₁) →
      Confirms o (uploadQuestion u) (.ok true) asking →
      (u.execute host).run w₁ = ((.error e, u'), w') → Executes u (.error e, u') es →
      Uploads u w ⟨5, some (Failure.uploading e).message⟩ w' (asking ++ es.map .transport)
  | uploaded {w w₁ n u' w' asking es} : u.pending ≠ [] →
      (confirm host o (uploadQuestion u)).run w = (.ok true, w₁) →
      Confirms o (uploadQuestion u) (.ok true) asking →
      (u.execute host).run w₁ = ((.ok n, u'), w') → Executes u (.ok n, u') es →
      Uploads u w ⟨0, none⟩ w' (asking ++ es.map .transport)

/-- How the program ends with the result of a request. -/
def endingOf : Except Failure Unit → Ending
  | .ok () => ⟨0, none⟩
  | .error failure => failure.ending

/-- Nobody is asked who has settled it, or who is not there. -/
theorem confirm_run (question : String) (w : ω) :
    (confirm host o question).run w =
      if o.assumeYes || o.quiet then (.ok true, w)
      else
        match host.isTerminal.run w with
        | (false, w) => (.ok true, w)
        | (true, w) => (host.ask question).run w := by
  unfold confirm
  split_ifs
  · rfl
  · rw [StateT.run_bind]
    obtain ⟨_ | _, w₁⟩ := host.isTerminal.run w <;> rfl

/-- Keeping deeds does not change what asking comes to. -/
theorem confirm_chronicled (question : String) (w : ω) (log : List Deed) :
    ∃ asking, (confirm host.chronicled o question).run (w, log) =
        (((confirm host o question).run w).1, ((confirm host o question).run w).2, log ++ asking) ∧
      Confirms o question ((confirm host o question).run w).1 asking := by
  rw [confirm_run, confirm_run]
  split_ifs with hsettled
  · exact ⟨[], by rw [List.append_nil], .settled hsettled⟩
  have hopen : (o.assumeYes || o.quiet) = false := Bool.eq_false_iff.mpr hsettled
  rw [show host.chronicled.isTerminal.run (w, log) = ((host.isTerminal.run w).1,
    (host.isTerminal.run w).2, log ++ [.terminal (host.isTerminal.run w).1]) from rfl]
  obtain ⟨_ | _, w₁⟩ := host.isTerminal.run w
  · exact ⟨_, rfl, .unattended hopen⟩
  · exact ⟨_, Prod.ext rfl (Prod.ext rfl (List.append_assoc log [_] [_])), .asked hopen⟩

/-- Sending asks first, and executes the uploader if the answer is to go on. -/
theorem upload_run (u : Uploader) (w : ω) :
    (upload host o u).run.run w =
      if u.pending.isEmpty then (.ok (), w)
      else
        match (confirm host o (uploadQuestion u)).run w with
        | (.error reason, w) => (.error (.asking reason), w)
        | (.ok false, w) => (.error (.uploader .cancelled), w)
        | (.ok true, w) =>
          match (u.execute host).run w with
          | ((.error e, _), w) => (.error (.uploading e), w)
          | ((.ok _, _), w) => (.ok (), w) := by
  unfold upload
  split_ifs
  · rfl
  rw [run_bind_run, ExceptT.run_lift, StateT.run_map]
  obtain ⟨_ | _ | _, w₁⟩ := (confirm host o (uploadQuestion u)).run w
  · rfl
  · rfl
  show ((ExceptT.lift (u.execute host) >>= _ : ExceptT Failure (StateM ω) Unit).run).run w₁ = _
  rw [run_bind_run, ExceptT.run_lift, StateT.run_map]
  dsimp only
  obtain ⟨⟨_ | _, _⟩, _⟩ := (u.execute host).run w₁ <;> rfl

/-- Keeping deeds does not change what sending comes to, and it goes in one of the ways that it
can. -/
theorem upload_chronicled (u : Uploader) (w : ω) (log : List Deed) :
    ∃ deeds, (upload host.chronicled o u).run.run (w, log) =
        (((upload host o u).run.run w).1, ((upload host o u).run.run w).2, log ++ deeds) ∧
      Uploads host o u w (endingOf ((upload host o u).run.run w).1)
        ((upload host o u).run.run w).2 deeds := by
  rw [upload_run, upload_run]
  split_ifs with hpending
  · exact ⟨[], by rw [List.append_nil], .nothing (List.isEmpty_iff.mp hpending)⟩
  have hne : u.pending ≠ [] := fun h => hpending (List.isEmpty_iff.mpr h)
  obtain ⟨asking, hrun, hconfirms⟩ := confirm_chronicled host o (uploadQuestion u) w log
  rw [hrun]
  generalize hconfirm : (confirm host o (uploadQuestion u)).run w = answer at hconfirms
  obtain ⟨reason | _ | _, w₁⟩ := answer
  · exact ⟨asking, rfl, .unasked hne hconfirm hconfirms⟩
  · exact ⟨asking, rfl, .declined hne hconfirm hconfirms⟩
  -- Only here are files sent, and what comes of it is what comes of executing the uploader.
  obtain ⟨es, hsent, hes⟩ := execute_chronicled host u w₁ (log ++ asking)
  dsimp only
  rw [hsent]
  generalize hexecute : (u.execute host).run w₁ = answer at hes
  obtain ⟨⟨e | n, u'⟩, w₂⟩ := answer
  · exact ⟨_, by rw [List.append_assoc], .halted hne hconfirm hconfirms hexecute hes⟩
  · exact ⟨_, by rw [List.append_assoc], .uploaded hne hconfirm hconfirms hexecute hes⟩

/-! ## Delivering -/

/-- How delivering a text goes: it is written once, and only then files may be sent. -/
inductive Delivers (output text : String) (u : Uploader) : ω → Ending → ω → List Deed → Prop
  | unwritten {w fault w'} : (put host output text).run w = (.error fault, w') →
      Delivers output text u w ⟨1, some (unwritten output fault).message⟩ w'
        [delivery output text (.error fault)]
  | written {w w₁ ending w' deeds} : (put host output text).run w = (.ok (), w₁) →
      Uploads host o u w₁ ending w' deeds →
      Delivers output text u w ending w' (delivery output text (.ok ()) :: deeds)

/-- Writes an output and then uploads. -/
def deliver (output text : String) (u : Uploader) : ExceptT Failure (StateM ω) Unit := do
  writeOutput host output text
  upload host o u

/-- Delivering uploads where writing does not fail. -/
theorem deliver_run (output text : String) (u : Uploader) (w : ω) :
    (deliver host o output text u).run.run w =
      match (put host output text).run w with
      | (.error fault, w) => (.error (unwritten output fault), w)
      | (.ok (), w) => (upload host o u).run.run w := by
  rw [deliver, run_bind_run, run_writeOutput, StateT.run_map]
  obtain ⟨fault | _, w₁⟩ := (put host output text).run w <;> rfl

/-- Writing an output is one deed. -/
theorem put_chronicled_run (output text : String) (w : ω) (log : List Deed) :
    (put host.chronicled output text).run (w, log) =
      (((put host output text).run w).1, ((put host output text).run w).2,
        log ++ [delivery output text ((put host output text).run w).1]) := by
  unfold put delivery
  split_ifs <;> rfl

/-- Delivering is one deed of writing, and only if that succeeds, those of sending. -/
theorem deliver_chronicled (output text : String) (u : Uploader) (w : ω) (log : List Deed) :
    ∃ deeds, (deliver host.chronicled o output text u).run.run (w, log) =
        (((deliver host o output text u).run.run w).1,
          ((deliver host o output text u).run.run w).2, log ++ deeds) ∧
      Delivers host o output text u w (endingOf ((deliver host o output text u).run.run w).1)
        ((deliver host o output text u).run.run w).2 deeds := by
  rw [deliver_run, deliver_run, put_chronicled_run]
  generalize hput : (put host output text).run w = answer
  obtain ⟨fault | _, w₁⟩ := answer
  · refine ⟨_, rfl, ?_⟩
    have hcode := code_unwritten output fault
    show Delivers host o output text u w ⟨(unwritten output fault).code, _⟩ w₁ _
    rw [hcode]
    exact .unwritten hput
  · obtain ⟨deeds, hrun, huploads⟩ :=
      upload_chronicled host o u w₁ (log ++ [delivery output text (.ok ())])
    dsimp only
    rw [hrun, List.append_assoc]
    exact ⟨_, rfl, .written hput huploads⟩

/-! ## A run -/

/-- What the arguments of the program come to if they do not ask for anything but an output of an
input. -/
inductive Working : Except Stop Request → Prop
  | misused : Working (.error .usage)
  | work (o : Options) (work : Work) : Working (.ok ⟨o, work.action⟩)

/-- How a run of the program goes, from a machine before to its ending, the machine afterwards and
all its deeds. -/
inductive Course : Except Stop Request → ω → Ending → ω → List Deed → Prop
  | misused {w} : Course (.error .usage) w ⟨2, none⟩ w []
  | unprepared {o work w ending w' inquiries} :
      Prepares host env o work w (.error ending) w' →
      (∀ d ∈ inquiries, d.Inquires (work.input :: Settings.sources o.file)) →
      Course (.ok ⟨o, work.action⟩) w ending w' inquiries
  | delivered {o work w text u w₁ ending w' inquiries deeds} :
      Prepares host env o work w (.ok (text, u)) w₁ →
      (∀ d ∈ inquiries, d.Inquires (work.input :: Settings.sources o.file)) →
      Delivers host o work.output text u w₁ ending w' deeds →
      Course (.ok ⟨o, work.action⟩) w ending w' (inquiries ++ deeds)

/-- A work delivers what was prepared for it. -/
theorem run_work_run (w : ω) :
    ((Request.run host env ⟨o, work.action⟩).run).run w =
      match (prepare host env o work).run.run w with
      | (.error failure, w) => (.error failure, w)
      | (.ok (text, u), w) => (deliver host o work.output text u).run.run w := by
  rw [run_action, run_bind_run]
  obtain ⟨failure | ⟨text, u⟩, w₁⟩ := (prepare host env o work).run.run w <;> rfl

/-- The program ends as its request does. -/
theorem runProgram_run {args : List String} {request : Request}
    (h : Request.ofArguments env args = .ok request) (w : ω) :
    (runProgram host env args).run w =
      (endingOf ((request.run host env).run.run w).1, ((request.run host env).run.run w).2) := by
  unfold runProgram
  rw [h]
  dsimp only
  rw [StateT.run_bind]
  obtain ⟨failure | _, w₁⟩ := ((request.run host env).run).run w <;> rfl

/-- Nothing is done for arguments that are none of the program. -/
theorem runProgram_misused {args : List String}
    (h : Request.ofArguments env args = .error .usage) (w : ω) :
    (runProgram host env args).run w = (⟨2, none⟩, w) := by
  unfold runProgram
  rw [h]
  rfl

/-- Keeping deeds does not change a run, and it follows one of the courses. -/
theorem runProgram_course {args : List String} (h : Working (Request.ofArguments env args))
    (w : ω) :
    ∃ ending w' deeds, (runProgram host env args).run w = (ending, w') ∧
      (runProgram host.chronicled env args).run (w, []) = (ending, w', deeds) ∧
      Course host env (Request.ofArguments env args) w ending w' deeds := by
  generalize hrequest : Request.ofArguments env args = request at h ⊢
  cases h with
  | misused =>
    rw [runProgram_misused host env hrequest, runProgram_misused host.chronicled env hrequest]
    exact ⟨_, w, [], rfl, rfl, .misused⟩
  | work o work =>
    rw [runProgram_run host env hrequest, runProgram_run host.chronicled env hrequest,
      run_work_run, run_work_run]
    have hprepares := prepares_prepare host env o work w
    -- Preparing asks for no other files than these, and does nothing but ask.
    have hpaths : ∀ path ∈ Settings.sources o.file, path ∈ work.input :: Settings.sources o.file :=
      fun _ => List.mem_cons_of_mem _
    have halike : Lockstep (Inquiring (work.input :: Settings.sources o.file) [])
        (prepare host env o work).run (prepare host.chronicled env o work).run :=
      lockstep_prepare env (loadAlike_chronicled host hpaths)
        (lockstep_freshSeed_chronicled host) (lockstep_keeping _ fun _ => List.mem_cons_self)
        (lockstep_keeping _ fun _ => trivial)
    obtain ⟨hanswer, hmachine, inquiries, hdeeds, hall⟩ := halike w (w, []) (inquiring_start w)
    have hchronicled : (prepare host.chronicled env o work).run.run (w, []) =
        (((prepare host env o work).run.run w).1, ((prepare host env o work).run.run w).2,
          inquiries) := Prod.ext hanswer.symm (Prod.ext hmachine hdeeds)
    rw [hchronicled]
    generalize (prepare host env o work).run.run w = prepared at hprepares
    obtain ⟨failure | ⟨text, u⟩, w₁⟩ := prepared
    · exact ⟨_, w₁, inquiries, rfl, rfl, .unprepared hprepares hall⟩
    · obtain ⟨deeds, hrun, hdelivers⟩ :=
        deliver_chronicled host o work.output text u w₁ inquiries
      dsimp only
      rw [hrun]
      exact ⟨_, _, inquiries ++ deeds, rfl, rfl, .delivered hprepares hall hdelivers⟩

end Command

/-! ## What is left -/

/-- Something about a machine that only writing, printing and sending may change. -/
structure Host.Quiet {ω α : Type} (host : Host (StateM ω)) (seen : ω → α) : Prop where
  isPresent (path : String) (w : ω) : seen ((host.isPresent path).run w).2 = seen w
  read (path : String) (w : ω) : seen ((host.read path).run w).2 = seen w
  readInput (w : ω) : seen (host.readInput.run w).2 = seen w
  isTerminal (w : ω) : seen (host.isTerminal.run w).2 = seen w
  ask (question : String) (w : ω) : seen ((host.ask question).run w).2 = seen w
  connect (w : ω) : seen (host.connect.run w).2 = seen w
  freshSeed (w : ω) : seen (host.freshSeed.run w).2 = seen w

section

variable {ω α : Type} {host : Host (StateM ω)} {seen : ω → α}

/-- A machine of which something is seen. -/
def Seeing (seen : ω → α) (a : α) (s t : ω) : Prop := s = t ∧ seen t = a

/-- What is kept is seen all along. -/
theorem lockstep_seeing {β : Type} {a : α} {action : StateM ω β}
    (h : ∀ w, seen (action.run w).2 = seen w) : Lockstep (Seeing seen a) action action := by
  rintro w _ ⟨rfl, hw⟩
  exact ⟨rfl, rfl, (h w).trans hw⟩

namespace Host.Quiet

variable (h : host.Quiet seen) {w w' : ω}

include h

/-- Loading settings writes nothing. -/
theorem load {env : Settings.Environment} {o : Command.Options}
    {answer : Except Settings.Failure Settings.Resolved}
    (hrun : (Settings.Resolved.load host o.file o.overrides env).run w = (answer, w')) :
    seen w' = seen w := by
  have halike : Settings.LoadAlike (Seeing seen (seen w)) host host o.file :=
    { look := fun path _ => lockstep_seeing (h.isPresent path)
      read := fun path _ => lockstep_seeing (h.read path)
      readInput := lockstep_seeing h.readInput }
  have hkept := (halike.load (lockstep_seeing h.freshSeed) o.overrides env w w ⟨rfl, rfl⟩).2.2
  rwa [hrun] at hkept

/-- Reading an input writes nothing. -/
theorem fetch {input : String} {answer : Except Fault String}
    (hrun : (Command.fetch host input).run w = (answer, w')) : seen w' = seen w := by
  unfold Command.fetch at hrun
  split_ifs at hrun
  · cases hrun
    exact h.readInput w
  · cases hrun
    exact h.read input w

/-- Setting up the sending writes nothing. -/
theorem attach {r : Settings.Resolved} {answer : Except String Unit}
    (hrun : (Command.attach host r).run w = (answer, w')) : seen w' = seen w := by
  unfold Command.attach at hrun
  split_ifs at hrun
  · have hkept := h.connect w
    rwa [hrun] at hkept
  · cases hrun
    rfl

/-- Asking whether to go on writes nothing. -/
theorem confirm {o : Command.Options} {question : String} {answer : Except String Bool}
    (hrun : (Command.confirm host o question).run w = (answer, w')) : seen w' = seen w := by
  rw [Command.confirm_run] at hrun
  split_ifs at hrun
  · cases hrun
    rfl
  have hterminal := h.isTerminal w
  generalize host.isTerminal.run w = attended at hrun hterminal
  obtain ⟨_ | _, w₁⟩ := attended
  · cases hrun
    exact hterminal
  · have hasked := h.ask question w₁
    rw [show (host.ask question).run w₁ = (answer, w') from hrun] at hasked
    exact hasked.trans hterminal

end Host.Quiet

end

namespace Command

open Settings (Environment)
open Upload (Uploader)

section

variable {ω α : Type} {host : Host (StateM ω)} {seen : ω → α} {env : Environment} {o : Options}
  {work : Work} {w w' : ω}

/-- Reading settings and an input writes nothing. -/
theorem Reads.keeps {r : Settings.Resolved} {source : Source}
    (h : Reads host env o work w r source w') (hquiet : host.Quiet seen) : seen w' = seen w := by
  obtain ⟨hload, hfetch, -⟩ := h
  exact (hquiet.fetch hfetch).trans (hquiet.load hload)

/-- Preparing an output writes nothing. -/
theorem Prepares.keeps {outcome : Except Ending (String × Uploader)}
    (h : Prepares host env o work w outcome w') (hquiet : host.Quiet seen) : seen w' = seen w := by
  cases h with
  | unsettled hload => exact hquiet.load hload
  | unread hload hfetch | malformed hload hfetch _ _ =>
    exact (hquiet.fetch hfetch).trans (hquiet.load hload)
  | unconnected hreads hattach | misplaced hreads hattach _ | failed hreads hattach _ _
    | made hreads hattach _ _ =>
    exact (hquiet.attach hattach).trans (hreads.keeps hquiet)

/-- What a run leaves behind whose ending is neither good nor about uploads. What came of an output
that could not be written may be there, and a whole output may be there if nobody could be asked
after that. -/
inductive Leaves (host : Host (StateM ω)) (env : Environment) (seen : ω → α)
    (request : Except Stop Request) (w : ω) : Ending → ω → Prop
  | nothing {ending w'} : seen w' = seen w → Leaves host env seen request w ending w'
  | part {o work text u w₁ fault w'} : request = .ok ⟨o, work.action⟩ →
      Prepares host env o work w (.ok (text, u)) w₁ → seen w₁ = seen w →
      (put host work.output text).run w₁ = (.error fault, w') →
      Leaves host env seen request w ⟨1, some (unwritten work.output fault).message⟩ w'
  | whole {o work text u w₁ w₂ reason w'} : request = .ok ⟨o, work.action⟩ →
      Prepares host env o work w (.ok (text, u)) w₁ → seen w₁ = seen w →
      (put host work.output text).run w₁ = (.ok (), w₂) → seen w' = seen w₂ →
      u.pending ≠ [] → (o.assumeYes || o.quiet) = false →
      (confirm host o (uploadQuestion u)).run w₂ = (.error reason, w') →
      Leaves host env seen request w ⟨1, some (Failure.asking reason).message⟩ w'

/-- What a course leaves behind is read off its last stage. -/
theorem Course.leaves {request : Except Stop Request} {ending : Ending} {deeds : List Deed}
    (h : Course host env request w ending w' deeds) (hquiet : host.Quiet seen)
    (hpos : 1 ≤ ending.code) (hle : ending.code ≤ 4) :
    Leaves host env seen request w ending w' := by
  cases h with
  | misused => exact .nothing rfl
  | unprepared hprepares _ => exact .nothing (hprepares.keeps hquiet)
  | delivered hprepares _ hdelivers =>
    cases hdelivers with
    | unwritten hput => exact .part rfl hprepares (hprepares.keeps hquiet) hput
    | written hput huploads =>
      -- Where the output stands, only a question that fails ends with a code in this range.
      cases huploads with
      | nothing _ => cases hpos
      | unasked hpending hconfirm hconfirms =>
        cases hconfirms with
        | asked hopen =>
          exact .whole rfl hprepares (hprepares.keeps hquiet) hput (hquiet.confirm hconfirm)
            hpending hopen hconfirm
      | declined _ _ _ =>
        have hle : 5 ≤ 4 := hle
        omega
      | halted _ _ _ _ _ =>
        have hle : 5 ≤ 4 := hle
        omega
      | uploaded _ _ _ _ _ => cases hpos

end

end Command

/-! ## Workspaces -/

namespace Workspace

/-- Nothing was written, printed or sent. -/
structure Untouched (w w' : Workspace) : Prop where
  files : w'.files = w.files
  output : w'.output = w.output
  sent : w'.sent = w.sent

/-- What only writing, printing and sending change, and who may be asked. -/
def seen (w : Workspace) :
    Files × String × List (String × List UInt8) × Option (Except String Bool) :=
  (w.files, w.output, w.sent, w.terminal)

variable {w w' w'' : Workspace} {limits : Limits}

/-- A workspace is untouched by nothing. -/
theorem Untouched.refl (w : Workspace) : w.Untouched w := ⟨rfl, rfl, rfl⟩

/-- What is untouched twice is untouched. -/
theorem Untouched.trans (h : w.Untouched w') (h' : w'.Untouched w'') : w.Untouched w'' :=
  ⟨h'.files.trans h.files, h'.output.trans h.output, h'.sent.trans h.sent⟩

/-- A workspace in which the same is seen is untouched. -/
theorem untouched_of_seen (h : w'.seen = w.seen) : w.Untouched w' := by
  obtain ⟨hfiles, h⟩ := Prod.mk.inj h
  obtain ⟨houtput, h⟩ := Prod.mk.inj h
  exact ⟨hfiles, houtput, (Prod.mk.inj h).1⟩

/-- Only writing, printing and sending change what is seen of a workspace. -/
theorem quiet_hostWithin (limits : Limits) : (hostWithin limits).Quiet seen where
  isPresent _ _ := rfl
  read _ _ := rfl
  readInput _ := rfl
  isTerminal _ := rfl
  ask _ _ := rfl
  connect w := by
    unfold hostWithin StateT.run
    dsimp only
    split <;> rfl
  freshSeed _ := rfl

/-- Loading settings leaves a workspace as it is. -/
theorem untouched_load (env : Settings.Environment) (o : Command.Options) (w : Workspace) :
    w.Untouched ((Settings.Resolved.load host o.file o.overrides env).run w).2 :=
  untouched_of_seen ((quiet_hostWithin {}).load rfl)

/-- How a workspace takes a text for an output: from the start and as far as there is room. The
answer says whether it took everything. -/
inductive Takes (output text : String) (w : Workspace) : Except Fault Unit → Workspace → Prop
  | refused {fault w'} : w.Untouched w' → Takes output text w (.error fault) w'
  | printed {answer part w'} : output = Command.streamPath → part <+: text.toList →
      (answer = .ok () ↔ part = text.toList) →
      w'.output = w.output ++ String.ofList part → w'.files = w.files → w'.sent = w.sent →
      Takes output text w answer w'
  | filed {answer part w'} : output ≠ Command.streamPath →
      part <+: Text.Utf8.encode text.toList →
      (answer = .ok () ↔ part = Text.Utf8.encode text.toList) →
      w.files.write output part = .ok w'.files → w'.output = w.output → w'.sent = w.sent →
      Takes output text w answer w'

/-- What fits is from the start. -/
theorem fitting_prefix {α : Type} (room : Option Nat) (l : List α) : fitting room l <+: l := by
  cases room with
  | none => exact List.prefix_refl l
  | some n => exact List.take_prefix n l

/-- A writing succeeds where everything fits. -/
theorem answerOf_eq_ok {α : Type} {part whole : List α} (h : part <+: whole) (fault : String) :
    answerOf part whole fault = .ok () ↔ part = whole := by
  unfold answerOf
  split_ifs with hlength
  · simpa using h.eq_of_length (beq_iff_eq.mp hlength)
  · refine iff_of_false nofun ?_
    rintro rfl
    exact hlength (beq_self_eq_true _)

/-- A workspace without limits takes every text that is printed. -/
theorem put_stream (text : String) (w : Workspace) :
    (Command.put host Command.streamPath text).run w =
      (.ok (), { w with output := w.output ++ text }) := by
  show (answerOf text.toList text.toList _,
    { w with output := w.output ++ String.ofList text.toList }) = _
  rw [(answerOf_eq_ok (List.prefix_refl _) _).mpr rfl, String.ofList_toList]

/-- Putting a text somewhere is taking it, and who may be asked does not change. -/
theorem takes_put {output text : String} {answer : Except Fault Unit}
    (h : (Command.put (hostWithin limits) output text).run w = (answer, w')) :
    w.Takes output text answer w' ∧ w'.terminal = w.terminal := by
  unfold Command.put at h
  split_ifs at h with hstream
  · cases h
    have hpart := fitting_prefix (limits.output.map (· - w.output.length)) text.toList
    exact ⟨.printed (beq_iff_eq.mp hstream) hpart (answerOf_eq_ok hpart _) rfl rfl rfl, rfl⟩
  · have hpart := fitting_prefix limits.file (Text.Utf8.encode text.toList)
    unfold hostWithin StateT.run at h
    dsimp only at h
    split at h
    · cases h
      exact ⟨.refused (.refl w), rfl⟩
    · cases h
      exact ⟨.filed (fun h => hstream (beq_iff_eq.mpr h)) hpart (answerOf_eq_ok hpart _)
        ‹_› rfl rfl, rfl⟩

/-- Workspaces may be replaced by untouched ones before and after taking a text. -/
theorem Takes.of_untouched {output text : String} {answer : Except Fault Unit}
    {before after : Workspace} (h : before.Takes output text answer after)
    (hbefore : w.Untouched before) (hafter : after.Untouched w') :
    w.Takes output text answer w' := by
  cases h with
  | refused h => exact .refused (hbefore.trans (h.trans hafter))
  | printed hstream hpart hanswer houtput hfiles hsent =>
    exact .printed hstream hpart hanswer (by rw [hafter.output, houtput, hbefore.output])
      (hafter.files.trans (hfiles.trans hbefore.files))
      (hafter.sent.trans (hsent.trans hbefore.sent))
  | filed hstream hpart hanswer hfiles houtput hsent =>
    exact .filed hstream hpart hanswer (by rw [hafter.files, ← hfiles, hbefore.files])
      (hafter.output.trans (houtput.trans hbefore.output))
      (hafter.sent.trans (hsent.trans hbefore.sent))

end Workspace

namespace Command

open Settings (Environment)

/-- What a run leaves in a workspace whose ending is neither good nor about uploads. -/
inductive Remains (limits : Limits) (env : Environment) (request : Except Stop Request)
    (w : Workspace) : Ending → Workspace → Prop
  | untouched {ending w'} : w.Untouched w' → Remains limits env request w ending w'
  | partly {o work text u w₁ fault w'} : request = .ok ⟨o, work.action⟩ →
      Prepares (Workspace.hostWithin limits) env o work w (.ok (text, u)) w₁ →
      w.Takes work.output text (.error fault) w' →
      Remains limits env request w ⟨1, some (unwritten work.output fault).message⟩ w'
  | wholly {o work text u w₁ reason w'} : request = .ok ⟨o, work.action⟩ →
      Prepares (Workspace.hostWithin limits) env o work w (.ok (text, u)) w₁ →
      w.Takes work.output text (.ok ()) w' → u.pending ≠ [] →
      (o.assumeYes || o.quiet) = false → w.terminal = some (.error reason) →
      Remains limits env request w ⟨1, some reason⟩ w'

variable {limits : Limits} {env : Environment} {request : Except Stop Request}
  {w w' : Workspace} {ending : Ending}

/-- A question that cannot be asked needs a terminal. -/
theorem terminal_of_confirm {o : Options} {question reason : String}
    (h : (confirm (Workspace.hostWithin limits) o question).run w = (.error reason, w')) :
    w.terminal = some (.error reason) := by
  rw [confirm_run] at h
  split_ifs at h
  · cases h
  rw [show (Workspace.hostWithin limits).isTerminal.run w = (w.terminal.isSome, w) from rfl] at h
  cases hterminal : w.terminal with
  | none =>
    rw [hterminal] at h
    cases h
  | some answer =>
    rw [hterminal] at h
    have hanswer : w.terminal.getD (.error "not a terminal") = .error reason :=
      congrArg Prod.fst h
    rw [hterminal] at hanswer
    exact congrArg some hanswer

/-- What is left behind on a workspace is what it took for the output. -/
theorem Leaves.remains
    (h : Leaves (Workspace.hostWithin limits) env Workspace.seen request w ending w') :
    Remains limits env request w ending w' := by
  cases h with
  | nothing hseen => exact .untouched (Workspace.untouched_of_seen hseen)
  | part hrequest hprepares hseen hput =>
    exact .partly hrequest hprepares ((Workspace.takes_put hput).1.of_untouched
      (Workspace.untouched_of_seen hseen) (.refl _))
  | @whole _ _ _ _ w₁ _ _ _ hrequest hprepares hseen hput hafter hpending hopen hconfirm =>
    obtain ⟨htakes, hterminal⟩ := Workspace.takes_put hput
    refine .wholly hrequest hprepares (htakes.of_untouched (Workspace.untouched_of_seen hseen)
      (Workspace.untouched_of_seen hafter)) hpending hopen ?_
    have hkept : w₁.terminal = w.terminal := congrArg (·.2.2.2) hseen
    rw [← hkept, ← hterminal]
    exact terminal_of_confirm hconfirm

/-- Commands that turn an input into an output are all or nothing, up to what a failing write leaves
and a question that cannot be asked. On every machine a run follows one of the courses: until the
settings are loaded, the input is read, the uploader is there and the rendering ended without an
error, the machine is only asked about the settings and the input, and the first of these that fails
decides the ending. Then the output is written once, and asking and uploading come after that. Where
the ending is neither good nor about uploads, nothing else than a part of the output may be left,
and the whole of it only if nobody could be asked. -/
theorem all_or_nothing (env : Environment) {args : List String}
    (h : Working (Request.ofArguments env args)) :
    (∀ {ω : Type} (host : Host (StateM ω)) (w : ω), ∃ ending w' deeds,
      (runProgram host env args).run w = (ending, w') ∧
      (runProgram host.chronicled env args).run (w, []) = (ending, w', deeds) ∧
      Course host env (Request.ofArguments env args) w ending w' deeds ∧
      ∀ {α : Type} (seen : ω → α), host.Quiet seen → 1 ≤ ending.code → ending.code ≤ 4 →
        Leaves host env seen (Request.ofArguments env args) w ending w') ∧
    ∀ (limits : Limits) (w w' : Workspace) (ending : Ending),
      (runProgram (Workspace.hostWithin limits) env args).run w = (ending, w') →
      1 ≤ ending.code → ending.code ≤ 4 →
      Remains limits env (Request.ofArguments env args) w ending w' := by
  refine ⟨fun host w => ?_, fun limits w w' ending hrun hpos hle => ?_⟩
  · obtain ⟨ending, w', deeds, hrun, hchronicled, hcourse⟩ := runProgram_course host env h w
    exact ⟨ending, w', deeds, hrun, hchronicled, hcourse, fun _ hquiet => hcourse.leaves hquiet⟩
  · obtain ⟨ending', w'', deeds, hrun', -, hcourse⟩ :=
      runProgram_course (Workspace.hostWithin limits) env h w
    cases hrun.symm.trans hrun'
    exact (hcourse.leaves (Workspace.quiet_hostWithin limits) hpos hle).remains

/-- A workspace with some settings and some input. -/
def furnished (settings input : String) : Workspace where
  files := [(["customazed.json"], .file (Text.Utf8.encode settings.toList))]
  input := Text.Utf8.encode input.toList

/-- A workspace with bare settings, and with some input. -/
def bare (input : String) : Workspace := furnished "{}" input

/-- A text that is no template leaves a workspace without output. -/
theorem all_or_nothing_unclosed :
    Working (Request.ofArguments [] ["template"]) ∧
      ∃ ending w', (runProgram Workspace.host [] ["template"]).run (bare "x\x7b\x7b") =
          (ending, w') ∧
        ending.code = 4 ∧ (bare "x\x7b\x7b").Untouched w' := by
  have hworking : Working (Request.ofArguments [] ["template"]) :=
    .work (optionsOf [.nothing, .nothing] []) ⟨.text, "-", "-"⟩
  have hcode : ((runProgram Workspace.host [] ["template"]).run (bare "x\x7b\x7b")).1.code = 4 := by
    decide +kernel
  generalize hrun : (runProgram Workspace.host [] ["template"]).run (bare "x\x7b\x7b") = r
    at hcode ⊢
  obtain ⟨ending, w'⟩ := r
  have hcode : ending.code = 4 := hcode
  refine ⟨hworking, ending, w', rfl, hcode, ?_⟩
  cases (all_or_nothing [] hworking).2 {} _ w' ending hrun (by omega) (by omega) with
  | untouched huntouched => exact huntouched
  | partly => cases hcode
  | wholly => cases hcode

/-- Settings of a place for files. -/
def placeSettings : String :=
  "\x7b\"storage\": \x7b\"location\": \"l\", \"resourceGroup\": \"g\", \"accountName\": \"a\", " ++
  "\"containerName\": \"c\", \"blobEndpoint\": \"https://[::1]\"\x7d\x7d"

/-- A machine whose files end after one octet. -/
def narrowHost : Host (StateM Workspace) := Workspace.hostWithin { file := some 1 }

/-- More than nothing may be left by a run that fails, and something may be printed without
settings. A question that cannot be asked comes after the output, a file may end before the text
does, and the version of a command needs no settings. -/
theorem not_all_or_nothing :
    let attended := { furnished placeSettings "\x7b\x7bupload `a`\x7d\x7d" with
      terminal := some (.error "not a terminal") }
    let asked := (runProgram Workspace.host [] ["template"]).run attended
    let cut := (runProgram narrowHost [] ["template", "-o", "out"]).run (bare "text")
    let named := (runProgram Workspace.host [] ["template", "--version"]).run {}
    (asked.1 = ⟨1, some "not a terminal"⟩ ∧ asked.2.output ≠ "") ∧
    (cut.1.code = 1 ∧ cut.2.files.read "out" = .ok [116]) ∧
    (named.1 = ⟨0, none⟩ ∧ named.2.output = "customazed-template 0.1.0\n") := by
  decide +kernel

end Command

end Stencil
