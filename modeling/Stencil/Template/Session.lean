import Stencil.Template.Function
import Stencil.Template.Memo
import Stencil.Template.Parser
import Stencil.Texts

/-!
# Sessions

A session renders one text, or all texts of one thing, over the same surroundings. A text is parsed
and its calls are checked; if either fails, nothing in it runs. Then its parts are written from left
to right. What a call returns is a template again, unless the function does not expand, and the
outcome of every such call is remembered.

Errors do not stop a session: the first one decides how it ends, and each leaves a marker where its
value would stand. The memo ends self-references, and `maxDepth` ends everything else that goes on
for ever.
-/

namespace Stencil.Template

/-- How deep expansions may nest. -/
def maxDepth : Nat := 128

/-- The state of a session: its memo, its errors with the first one first, and its surroundings. -/
structure Session (σ : Type) where
  memo : Memo
  errors : List Error
  world : σ

/-- What a session comes to: an output that may hold markers, and the first error. -/
structure Rendering (α : Type) where
  output : α
  error : Option Error

/-- The output of a rendering without errors. -/
def Rendering.result {α : Type} (r : Rendering α) : Except Error α :=
  match r.error with
  | some e => .error e
  | none => .ok r.output

namespace Session

variable {σ : Type}

/-- A session that has done nothing yet. -/
def start (world : σ) : Session σ := ⟨.empty, [], world⟩

/-- Takes note of an error. -/
def record (s : Session σ) (e : Error) : Session σ :=
  { s with errors := s.errors ++ [e] }

/-- Takes note of an error that leaves its marker as a value. -/
def fail (s : Session σ) (e : Error) : String × Session σ :=
  (e.marker, s.record e)

/-- Runs a function on the surroundings. -/
def run (s : Session σ) (f : Function σ) (args : List String) : Except Error String × Session σ :=
  let r := f.call args s.world
  (r.1, { s with world := r.2 })

/-- Ends the call of a key with a value, and with the first error inside it. -/
def complete (s : Session σ) (key : CallKey) (value : String) (error : Option Error) :
    String × Session σ :=
  (value, { s with memo := s.memo.finish key ⟨value, error⟩ })

/-- Ends the call of a key with an error of its own. -/
def completeFailed (s : Session σ) (key : CallKey) (e : Error) : String × Session σ :=
  (s.record e).complete key e.marker (some e)

/-- Writes nodes from left to right with a way to make calls. -/
def writeNodes (invoke : Call → Session σ → String × Session σ) :
    List Node → Session σ → List String × Session σ
  | [], s => ([], s)
  | .text t :: rest, s =>
    let r := writeNodes invoke rest s
    (t :: r.1, r.2)
  | .literal t :: rest, s =>
    let r := writeNodes invoke rest s
    (t :: r.1, r.2)
  | .call c :: rest, s =>
    let v := invoke c s
    let r := writeNodes invoke rest v.2
    (v.1 :: r.1, r.2)

/-- Evaluates a text with a way to make calls. An error means that nothing of it ran. -/
def evaluateWith (registry : Registry σ) (invoke : Call → Session σ → String × Session σ)
    (text : String) (s : Session σ) : Except Error String × Session σ :=
  match parse text with
  | .error e => (.error e, s)
  | .ok nodes =>
    match registry.checkNodes nodes with
    | .error e => (.error e, s)
    | .ok () =>
      let r := writeNodes invoke nodes s
      (.ok (String.join r.1), r.2)

/-- Makes a call whose key is in flight and expands what it returns. -/
def expandCall (expand : String → Session σ → Except Error String × Session σ) (f : Function σ)
    (c : Call) (s : Session σ) : String × Session σ :=
  match s.run f c.args with
  | (.error e, s) => s.completeFailed c.key e
  | (.ok raw, s) =>
    let known := s.errors.length
    match expand raw s with
    | (.error e, s) => s.completeFailed c.key e
    | (.ok value, s) => s.complete c.key value s.errors[known]?

/-- Makes a call. There is no way to expand once expansions nest as deep as they may. -/
def invoke (registry : Registry σ)
    (expand? : Option (String → Session σ → Except Error String × Session σ))
    (c : Call) (s : Session σ) : String × Session σ :=
  match Table.get? c.name registry with
  | none => s.fail (.unknownFunction c.name)
  | some f =>
    if !f.expands then
      match s.run f c.args with
      | (.ok value, s) => (value, s)
      | (.error e, s) => s.fail e
    else
      match s.memo.lookup c.key with
      | some outcome =>
        match outcome.error with
        | none => (outcome.value, s)
        | some e => (outcome.value, s.record e)
      | none =>
        if f.sideEffects && !s.errors.isEmpty then
          s.fail (.upload (c.key.text ++ " skipped after earlier error"))
        else
          match expand? with
          | none => s.fail (.tooDeep c.key.text maxDepth)
          | some expand =>
            match s.memo.begin? c.key with
            | .error e => s.fail e
            | .ok memo => expandCall expand f c { s with memo }

/-- Evaluates a text where `headroom` more expansions may nest. -/
def evaluate (registry : Registry σ) :
    (headroom : Nat) → String → Session σ → Except Error String × Session σ
  | 0 => evaluateWith registry (invoke registry none)
  | headroom + 1 => evaluateWith registry (invoke registry (some (evaluate registry headroom)))

/-- Renders one text. A text that does not pass its checks stays as it is. -/
def renderText (registry : Registry σ) (text : String) (s : Session σ) : String × Session σ :=
  match evaluate registry maxDepth text s with
  | (.ok value, s) => (value, s)
  | (.error e, s) => (text, s.record e)

/-- Whether a text holds a placeholder. -/
def hasPlaceholder (text : String) : Bool :=
  (splitOpen text.toList).2.isSome

/-- Renders one text of a thing. A text without placeholders is left alone; one that does not pass
its checks becomes a marker. -/
def renderLeaf (registry : Registry σ) (text : String) : StateM (Session σ) String := fun s =>
  if hasPlaceholder text then
    match evaluate registry maxDepth text s with
    | (.ok value, s) => (value, s)
    | (.error e, s) => s.fail e
  else (text, s)

/-- How a session ends with an output. -/
def ending {α : Type} (r : α × Session σ) : Rendering α × σ :=
  (⟨r.1, r.2.errors.head?⟩, r.2.world)

/-- A whole session over one text. -/
def render (registry : Registry σ) (text : String) (world : σ) : Rendering String × σ :=
  ending (renderText registry text (start world))

/-- A whole session over all texts of a thing. -/
def renderAll {α : Type} [Texts α] (registry : Registry σ) (thing : α) (world : σ) :
    Rendering α × σ :=
  ending ((Texts.mapTexts (renderLeaf registry) thing).run (start world))

end Session

end Stencil.Template
