import EthGateway.Kind

/-
# EthGateway.Notice -- what the gateway reports beside its answers

Four things are worth a line in the log: a byte value too long for its kind, a call under a
deprecated name, an error of the backend and a backend that cannot be reached at the start. A
computation that may report something gives a `Noted` value: the value, and the notices in the order
in which they arose.
-/

namespace EthGateway

/-- A line of the log. -/
inductive Notice where
  | overlong (kind : Kind) (length : Nat)
  | deprecated (name replacement method : String)
  | backendError (method : String) (code : Int) (message : String)
  | unreachable (cause : String)
deriving DecidableEq, Repr

namespace Notice

/-- How grave a notice is. -/
def level : Notice → String
  | .overlong .. | .deprecated .. | .unreachable .. => "WARN"
  | .backendError .. => "ERROR"

/-- What a notice tells. -/
def message : Notice → String
  | .overlong kind length =>
    kind.text ++ " value has " ++ Nat.repr length ++ " bytes; forwarding unchanged"
  | .deprecated name replacement method =>
    name ++ " is deprecated in favor of " ++ replacement ++ " (" ++ method ++ ")"
  | .backendError method code message =>
    "Backend RPC error: method=" ++ method ++ ", code=" ++ Int.repr code ++ ", message=" ++ message
  | .unreachable cause => "Could not reach backend (will retry on requests): " ++ cause

/-- The whole line. -/
def line (n : Notice) : String := n.level ++ " " ++ n.message

end Notice

/-- A value with the notices that arose on the way to it. -/
structure Noted (α : Type) where
  value : α
  notices : List Notice
deriving DecidableEq, Repr

namespace Noted

variable {α β : Type}

/-- A value that gives rise to no notice. -/
protected def pure (a : α) : Noted α := ⟨a, []⟩

/-- Go on from a value; the later notices come after the earlier ones. -/
protected def bind (a : Noted α) (f : α → Noted β) : Noted β :=
  ⟨(f a.value).value, a.notices ++ (f a.value).notices⟩

instance : Monad Noted where
  pure := Noted.pure
  bind := Noted.bind

/-- A value with one notice. -/
def noting (n : Notice) (a : α) : Noted α := ⟨a, [n]⟩

@[simp] theorem value_pure (a : α) : (pure a : Noted α).value = a := rfl

@[simp] theorem notices_pure (a : α) : (pure a : Noted α).notices = [] := rfl

@[simp] theorem value_bind (a : Noted α) (f : α → Noted β) :
    (a >>= f).value = (f a.value).value := rfl

@[simp] theorem notices_bind (a : Noted α) (f : α → Noted β) :
    (a >>= f).notices = a.notices ++ (f a.value).notices := rfl

@[simp] theorem value_map (f : α → β) (a : Noted α) : (f <$> a).value = f a.value := rfl

@[simp] theorem notices_map (f : α → β) (a : Noted α) : (f <$> a).notices = a.notices :=
  List.append_nil _

@[ext] theorem ext {a b : Noted α} (hv : a.value = b.value) (hn : a.notices = b.notices) :
    a = b := by
  cases a; cases b; simp_all

instance : LawfulMonad Noted :=
  LawfulMonad.mk' Noted (fun a => by ext1 <;> simp) (fun a f => by ext1 <;> simp)
    (fun a f g => by ext1 <;> simp)

/-! ## Along a list -/

/-- Do something to each item, in order. -/
def each (f : α → Noted β) : List α → Noted (List β)
  | [] => pure []
  | a :: as => do return (← f a) :: (← each f as)

@[simp] theorem value_each (f : α → Noted β) (as : List α) :
    (each f as).value = as.map fun a => (f a).value := by
  induction as with
  | nil => rfl
  | cons a as ih => simp [each, ih]

@[simp] theorem notices_each (f : α → Noted β) (as : List α) :
    (each f as).notices = as.flatMap fun a => (f a).notices := by
  induction as with
  | nil => rfl
  | cons a as ih => simp [each, ih]

/-- Go through the functions of a list, each from where the last one ended. -/
def through (fs : List (α → Noted α)) (a : α) : Noted α :=
  match fs with
  | [] => pure a
  | f :: fs => do through fs (← f a)

end Noted

end EthGateway
