import RootedHeap.Proofs.Solo

/-!
Programs that use handles by identity only, several on one machine. A `Mutator` decides what to do
next from what it has seen, and what it sees has no handle numbers in it: it is given a token for
every handle, may pass tokens on, store them, compare them and return them. It acts by the frames of
its own stack, which it names by their places. A `Play` is how far it has come.

Whether the stack has reached the object of a token ever since the program was given it is kept with
the token. No program sees that, but what is proved about programs is about those that use only such
tokens: the handle of an object that was let go of may come to name another.

An `Ensemble` is a session with a play for each mutator. A cue lets one of them take its next turn,
a whole operation, or lets some thread collect; a list of cues is a schedule.
-/

namespace RootedHeap

/-! ### Naming by token -/

/-- A handle that a program was given. -/
structure Token where
  handle : Handle
  /-- Whether the program's stack has reached the object ever since. -/
  lasting : Bool

/-- A handle as a program names it. -/
inductive Item where
  | null
  | token (place : Nat)

namespace Item

def handle (tokens : List Token) : Item → Handle
  | null => Handle.null
  | token place => (tokens[place]?.map Token.handle).getD Handle.null

/-- Whether what is named is null or an object that the stack has reached ever since. -/
def lasts (tokens : List Token) : Item → Bool
  | null => true
  | token place => (tokens[place]?.map Token.lasting).getD true

end Item

/-- An argument or a result as a program names it. -/
inductive ItemWord where
  | reference (item : Item)
  | data (word : Word) (negative : word < 0)

namespace ItemWord

def word (tokens : List Token) : ItemWord → Word
  | reference item => (item.handle tokens).toWord
  | data word _ => word

/-- Whether the word is data or names what lasts. -/
def lasts (tokens : List Token) : ItemWord → Bool
  | reference item => item.lasts tokens
  | data _ _ => true

end ItemWord

/-- How a call or a program is to end. -/
inductive Fate where
  | word (word : ItemWord)
  | fault (fault : Fault)
  | failure (place : Nat)

namespace Fate

def answer (tokens : List Token) (faults : List Fault) : Fate → Answer Word
  | word named => .ok (named.word tokens)
  | fault made => .error made
  | failure place => .error (faults.getD place (.runtimeError (.stated "no failure")))

/-- Whether it names what lasts. -/
def lasts (tokens : List Token) : Fate → Bool
  | word named => named.lasts tokens
  | _ => true

end Fate

/-! ### What programs ask and see -/

/-- What a program may ask of a frame. -/
inductive Demand where
  | newObject
  | getReference (object : Item) (slot : Nat)
  | getData (object : Item) (slot : Nat)
  | setReference (object : Item) (slot : Nat) (target : Item)
  | setData (object : Item) (slot : Nat) (word : Word)
  | release (object : Item)
  | beginCall (name : String) (args : List ItemWord)
  | endCall (callee : Nat) (fate : Fate)
  | look

namespace Demand

def action (own : List Env) (tokens : List Token) (faults : List Fault) (env : Env) :
    Demand → Option Action
  | newObject => some (.newObject env)
  | getReference object slot => some (.getReference env (object.handle tokens) slot)
  | getData object slot => some (.getData env (object.handle tokens) slot)
  | setReference object slot target =>
    some (.setReference env (object.handle tokens) slot (target.handle tokens))
  | setData object slot word => some (.setData env (object.handle tokens) slot word)
  | release object => some (.release env (object.handle tokens))
  | beginCall name args => some (.beginCall env name (args.map (ItemWord.word tokens)))
  | endCall callee fate => own[callee]?.map fun callee =>
    .endCall env callee (fate.answer tokens faults)
  | look => some (.frame env)

/-- Whether it names only what lasts. -/
def lasts (tokens : List Token) : Demand → Bool
  | getReference object _ | getData object _ | setData object _ _ | release object =>
    object.lasts tokens
  | setReference object _ target => object.lasts tokens && target.lasts tokens
  | beginCall _ args => args.all (ItemWord.lasts tokens)
  | endCall _ fate => fate.lasts tokens
  | newObject | look => true

end Demand

/-- What a program is told. -/
inductive View where
  | created (gist : Gist)
  | gist (gist : Gist)
  | frame (depth : Nat) (state : FrameState) (count : Nat)
  | same (answer : Bool)
  deriving DecidableEq

/-- What the answer to an action tells, beside handles. -/
def View.ofReply : (action : Action) → action.Reply → View
  | .newObject _, answer => .created (.ofAnswer .ofHandle answer)
  | .beginCall _ _ _, answer => .gist (.ofAnswer (fun _ => .done) answer)
  | .frame _, record => .frame record.depth record.state record.handles.length
  | action, reply => .gist (.ofReply action reply)

/-- The handles that the answer to an action tells. -/
def Action.told : (action : Action) → action.Reply → List Handle
  | .newObject _, .ok h | .getReference _ _ _, .ok h => if h = Handle.null then [] else [h]
  | .endCall _ _ _, .ok word => word.target?.toList
  | .frame _, record => record.handles
  | _, _ => []

/-- The fault that an action was answered. -/
def Action.failure : (action : Action) → action.Reply → Option Fault
  | .newObject _, .error fault | .getReference _ _ _, .error fault | .getData _ _ _, .error fault
  | .setReference _ _ _ _, .error fault | .setData _ _ _ _, .error fault
  | .release _ _, .error fault | .beginCall _ _ _, .error fault
  | .endCall _ _ _, .error fault => some fault
  | _, _ => none

/-- What a program does next. -/
inductive Turn where
  | ask (frame : Nat) (demand : Demand)
  | compare (first second : Item)
  | finish (fate : Fate)

/-- A program that knows no handle numbers. What it has seen is given to it latest first. -/
structure Mutator where
  name : String
  next : List View → Turn

/-! ### Plays -/

structure Play where
  stack : StackRef
  tokens : List Token
  faults : List Fault
  seen : List View
  /-- Whether it used only tokens of objects that its stack had reached ever since. -/
  heedful : Bool

/-- Whether a stack reaches a cell, as marking finds out. -/
def Session.marks {A : Type} (s : Session A) (k : StackRef) (h : Handle) : Bool :=
  (s.machine.heap.mark (s.calls.stackRoots k) (Marks.none s.machine.heap.size)).has h

/-- The token when the stack has gone on to a session. -/
def Token.review {A : Type} (s : Session A) (k : StackRef) (token : Token) : Token :=
  { token with lasting := token.lasting && s.marks k token.handle }

namespace Play

variable {A : Type}

/-- The play of a program that is about to take its first turn. -/
def starting (stack : StackRef) : Play := ⟨stack, [], [], [], true⟩

/-- The play after an action that led to a session was answered. -/
def informed (play : Play) (s : Session A) (action : Action) (reply : action.Reply)
    (lasts : Bool) : Play where
  stack := play.stack
  tokens := (play.tokens ++ (action.told reply).map (Token.mk · true)).map
    (Token.review s play.stack)
  faults := play.faults ++ (action.failure reply).toList
  seen := .ofReply action reply :: play.seen
  heedful := play.heedful && lasts

/-- The play after two handles were compared. -/
def compared (play : Play) (first second : Item) : Play :=
  { play with
    seen := .same (first.handle play.tokens == second.handle play.tokens) :: play.seen
    heedful := play.heedful && (first.lasts play.tokens && second.lasts play.tokens) }

end Play

/-- The part of a program in an ensemble. -/
inductive Part (A : Type) where
  | waiting
  | playing (play : Play)
  | ended (last : Session A) (play : Play) (answer : Answer Word)

namespace Part

variable {A : Type}

/-- What it has seen, the latest first. -/
def seen : Part A → List View
  | waiting => []
  | playing play | ended _ play _ => play.seen

/-- Whether it used only tokens of objects that its stack had reached ever since. -/
def heedful : Part A → Bool
  | waiting => true
  | playing play | ended _ play _ => play.heedful

/-- How many turns it has taken. -/
def pace : Part A → Nat
  | waiting => 0
  | playing play => play.seen.length + 1
  | ended _ play _ => play.seen.length + 2

end Part

variable {A : Type} [Allocator A]

/-- What becomes of a session and a part when the program takes its next turn, on some thread. It
begins with a run, and ends with the end of that run. A turn that the rules do not permit is not
taken. -/
def Mutator.advance (mutator : Mutator) (s : Session A) (t : Thread) :
    Part A → Session A × Part A
  | .waiting =>
    match s.reply t (.beginRun mutator.name []) with
    | .ok entry => (s.after t (.beginRun mutator.name []), .playing (.starting entry.stack))
    | .error _ => (s, .waiting)
  | .playing play =>
    let own := s.ledger.envsOn play.stack
    match mutator.next play.seen with
    | .ask frame demand =>
      match own[frame]?.bind fun env => demand.action own play.tokens play.faults env with
      | some action =>
        if s.ledger.permits action then
          (s.after t action, .playing (play.informed (s.after t action) action (s.reply t action)
            (demand.lasts play.tokens)))
        else (s, .playing play)
      | none => (s, .playing play)
    | .compare first second => (s, .playing (play.compared first second))
    | .finish fate =>
      match own[0]? with
      | some entry =>
        let answer := fate.answer play.tokens play.faults
        if s.ledger.permits (.endRun entry answer) then
          (s.after t (.endRun entry answer),
            .ended s { play with heedful := play.heedful && fate.lasts play.tokens }
              (s.reply t (.endRun entry answer)))
        else (s, .playing play)
      | none => (s, .playing play)
  | .ended last play answer => (s, .ended last play answer)

/-! ### Ensembles -/

/-- A session and the parts of several programs on it. -/
structure Ensemble (A ι : Type) where
  session : Session A
  part : ι → Part A

/-- What may come next: a program takes a turn on a thread, or a thread collects. -/
inductive Cue (ι : Type) where
  | play (t : Thread) (who : ι)
  | collect (t : Thread)

namespace Ensemble

variable {ι : Type} [DecidableEq ι]

/-- Programs that are about to begin. -/
def opening (s : Session A) : Ensemble A ι := ⟨s, fun _ => .waiting⟩

/-- The ensemble after a cue. -/
def after (e : Ensemble A ι) (mutators : ι → Mutator) : Cue ι → Ensemble A ι
  | .play t who =>
    let (session, part) := (mutators who).advance e.session t (e.part who)
    ⟨session, Function.update e.part who part⟩
  | .collect t => { e with session := e.session.after t .collect }

/-- The ensemble after a list of cues, the latest cue first. -/
def perform (e : Ensemble A ι) (mutators : ι → Mutator) : List (Cue ι) → Ensemble A ι
  | [] => e
  | cue :: earlier => (e.perform mutators earlier).after mutators cue

end Ensemble

end RootedHeap
