/-!
# Status and I/O errors

Messages are copied as C strings, so they end before the first null
character.  The texts of `std::strerror` belong to the C library and are a
parameter.
-/

namespace LiteLsm

inductive StatusCode where
  | ok
  | notFound
  | corruption
  | notSupported
  | invalidArgument
  | ioError
  | alreadyExist
  deriving DecidableEq, Repr

/-- A status without a message has a null pointer in its place. -/
structure Status where
  code : StatusCode
  msg : Option String
  deriving DecidableEq, Repr

namespace Status

/-- What `strcpy` copies of a string. -/
def cString (text : String) : String :=
  String.ofList (text.toList.takeWhile (· ≠ Char.ofNat 0))

/-- `Status(StatusCode code, const std::string& msg)` -/
def withMessage (code : StatusCode) (msg : String) : Status :=
  { code, msg := some (cString msg) }

/-- `Status::OK()` -/
def okStatus : Status :=
  { code := .ok, msg := none }

def notFound (msg : String) : Status :=
  withMessage .notFound msg

def alreadyExist (msg : String) : Status :=
  withMessage .alreadyExist msg

def ioError (msg : String) : Status :=
  withMessage .ioError msg

def ok (status : Status) : Bool :=
  status.code == .ok

def isNotFound (status : Status) : Bool :=
  status.code == .notFound

def message (status : Status) : String :=
  status.msg.getD ""

end Status

def ENOENT : Nat := 2

def EINTR : Nat := 4

def EEXIST : Nat := 17

def ioError (strerror : Nat → String) (context : String)
    (errNumber : Nat) : Status :=
  if errNumber = 0 then .okStatus
  else if errNumber = ENOENT then
    .notFound (context ++ " " ++ strerror errNumber)
  else if errNumber = EEXIST then
    .alreadyExist (context ++ " " ++ strerror errNumber)
  else
    .ioError (context ++ " " ++ strerror errNumber)

section IoError

variable (strerror : Nat → String) (context : String) {errNumber : Nat}

theorem ok_ioError (failed : errNumber ≠ 0) :
    (ioError strerror context errNumber).ok = false := by
  rw [ioError, if_neg failed]
  split
  · rfl
  · split <;> rfl

theorem message_ioError (failed : errNumber ≠ 0) :
    (ioError strerror context errNumber).message =
      Status.cString (context ++ " " ++ strerror errNumber) := by
  rw [ioError, if_neg failed]
  split
  · rfl
  · split <;> rfl

theorem isNotFound_ioError :
    (ioError strerror context errNumber).isNotFound = true ↔
      errNumber = ENOENT := by
  by_cases missing : errNumber = ENOENT
  · subst missing
    simp only [iff_true]
    rfl
  · simp only [missing, iff_false, ioError, if_false]
    split
    · decide
    · split <;> simp [Status.isNotFound, Status.alreadyExist, Status.ioError,
        Status.withMessage]

theorem alreadyExist_ioError :
    (ioError strerror context errNumber).code = .alreadyExist ↔
      errNumber = EEXIST := by
  by_cases present : errNumber = EEXIST
  · subst present
    exact iff_of_true rfl rfl
  · simp only [present, iff_false, ioError, if_false]
    split
    · decide
    · split <;> simp [Status.notFound, Status.ioError, Status.withMessage]

end IoError

end LiteLsm
