import OnDemand.Text.Number

/-!
# Status codes

The facility answers every call with a 32-bit code whose top bit is set for a failure. The codes for a
Windows error number carry it in their lower half.
-/

namespace OnDemand

structure Status where
  bits : UInt32
deriving DecidableEq, Repr, Inhabited

namespace Status

def isSuccess (s : Status) : Bool := s.bits < 0x80000000

/-- The code read as a signed word. -/
def code (s : Status) : Int := if s.isSuccess then s.bits.toNat else (s.bits.toNat : Int) - 4294967296

/-- The status whose signed code is `n`. -/
def ofCode (n : Int) : Status := ⟨UInt32.ofNat (n % 4294967296).toNat⟩

/-- The status of a Windows error number; zero is success. -/
def ofWin32 (number : UInt32) : Status :=
  if number = 0 then ⟨0⟩ else ⟨(number &&& 0xFFFF) ||| 0x80070000⟩

def display (s : Status) : String := "0x" ++ Text.hexUpper 8 s.bits.toNat

instance : ToString Status := ⟨display⟩

def success : Status := ⟨0⟩

def failure : Status := ⟨0x80004005⟩
def invalidArgument : Status := ⟨0x80070057⟩
def outOfMemory : Status := ⟨0x8007000E⟩

def unsuccessful : Status := ⟨0xC0000001⟩
def ioTimeout : Status := ⟨0xC00000B5⟩

def fileNotFound : Status := ofWin32 2
def pathNotFound : Status := ofWin32 3
def accessDenied : Status := ofWin32 5
def invalidHandle : Status := ofWin32 6
def sharingViolation : Status := ofWin32 32
def alreadyExists : Status := ofWin32 183
def isDirectory : Status := ofWin32 267
def providerNotRunning : Status := ofWin32 362
def alreadyConnected : Status := ofWin32 365
def notACloudFile : Status := ofWin32 376
def invalidRequest : Status := ofWin32 380
def inUse : Status := ofWin32 391
def notFound : Status := ofWin32 1168
def noSystemResources : Status := ofWin32 1450

/-- Whether `s` says that a connection or transfer key no longer refers to anything. -/
def saysStale (s : Status) : Bool :=
  s = invalidRequest || s = providerNotRunning || s = invalidHandle

end Status

end OnDemand
