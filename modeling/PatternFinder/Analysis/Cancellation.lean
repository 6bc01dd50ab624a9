/-! Cancellation: who is asked, and what the answer may depend on. -/
namespace PatternFinder

/-- A source of answers to "has this been cancelled?". Asking may change what it answers next, and
so may a request to cancel. -/
structure Signal (σ : Type) where
  poll : σ → Bool × σ
  request : σ → σ

namespace Signal

/-- A flag that stays set once it is requested. -/
def flag : Signal Bool where
  poll s := (s, s)
  request _ := true

/-- Answers written down beforehand; after the last of them the answer is no. -/
def script : Signal (List Bool) where
  poll
    | [] => (false, [])
    | answer :: rest => (answer, rest)
  request s := s

/-- Ask once for each of several places and keep those for which the answer is no. -/
def goAhead {σ : Type} (signal : Signal σ) : σ → List Nat → List Nat × σ
  | s, [] => ([], s)
  | s, place :: rest =>
    let (stop, s) := signal.poll s
    let (cleared, s) := goAhead signal s rest
    (if stop then cleared else place :: cleared, s)

end Signal

/-- Several handles on cancellation flags; a copy of a handle shares its flag. -/
structure TokenBank where
  flags : List Bool
  tokens : List Nat

namespace TokenBank

def single : TokenBank := ⟨[false], [0]⟩

/-- A new handle on a new flag. -/
def create (b : TokenBank) : TokenBank := ⟨b.flags ++ [false], b.tokens ++ [b.flags.length]⟩

/-- A new handle on the flag of handle `i`. -/
def clone (b : TokenBank) (i : Nat) : TokenBank := ⟨b.flags, b.tokens ++ (b.tokens[i]?).toList⟩

private def store (b : TokenBank) (i : Nat) (value : Bool) : TokenBank :=
  match b.tokens[i]? with
  | some k => ⟨b.flags.set k value, b.tokens⟩
  | none => b

def cancel (b : TokenBank) (i : Nat) : TokenBank := b.store i true

def reset (b : TokenBank) (i : Nat) : TokenBank := b.store i false

/-- What each handle answers. -/
def answers (b : TokenBank) : List Bool := b.tokens.map fun k => (b.flags[k]?).getD false

end TokenBank

end PatternFinder
