import Bandscan.Text.Hex
import Bandscan.Delivery.Parameters

namespace Bandscan

/-- Why an operation on a device failed: an error number of the system, or one of the reasons of
a device that is not a system device. -/
inductive Fault where
  | errno (number : Nat)
  | invalidInput
  | wouldBlock
  | brokenPipe
  deriving DecidableEq, Repr

namespace Errno

def again : Nat := 11
def busy : Nat := 16
def interrupted : Nat := 4
def tooManyOpenInSystem : Nat := 23
def tooManyOpen : Nat := 24
def overflow : Nat := 75

/-- What the system calls the error numbers from 0 on. Two of them have no name. -/
def names : List String :=
  ["Success", "Operation not permitted", "No such file or directory", "No such process",
   "Interrupted system call", "Input/output error", "No such device or address",
   "Argument list too long", "Exec format error", "Bad file descriptor", "No child processes",
   "Resource temporarily unavailable", "Cannot allocate memory", "Permission denied",
   "Bad address", "Block device required", "Device or resource busy", "File exists",
   "Invalid cross-device link", "No such device", "Not a directory", "Is a directory",
   "Invalid argument", "Too many open files in system", "Too many open files",
   "Inappropriate ioctl for device", "Text file busy", "File too large",
   "No space left on device", "Illegal seek", "Read-only file system", "Too many links",
   "Broken pipe", "Numerical argument out of domain", "Numerical result out of range",
   "Resource deadlock avoided", "File name too long", "No locks available",
   "Function not implemented", "Directory not empty", "Too many levels of symbolic links", "",
   "No message of desired type", "Identifier removed", "Channel number out of range",
   "Level 2 not synchronized", "Level 3 halted", "Level 3 reset", "Link number out of range",
   "Protocol driver not attached", "No CSI structure available", "Level 2 halted",
   "Invalid exchange", "Invalid request descriptor", "Exchange full", "No anode",
   "Invalid request code", "Invalid slot", "", "Bad font file format", "Device not a stream",
   "No data available", "Timer expired", "Out of streams resources",
   "Machine is not on the network", "Package not installed", "Object is remote",
   "Link has been severed", "Advertise error", "Srmount error", "Communication error on send",
   "Protocol error", "Multihop attempted", "RFS specific error", "Bad message",
   "Value too large for defined data type", "Name not unique on network",
   "File descriptor in bad state", "Remote address changed",
   "Can not access a needed shared library", "Accessing a corrupted shared library",
   ".lib section in a.out corrupted", "Attempting to link in too many shared libraries",
   "Cannot exec a shared library directly", "Invalid or incomplete multibyte or wide character",
   "Interrupted system call should be restarted", "Streams pipe error", "Too many users",
   "Socket operation on non-socket", "Destination address required", "Message too long",
   "Protocol wrong type for socket", "Protocol not available", "Protocol not supported",
   "Socket type not supported", "Operation not supported", "Protocol family not supported",
   "Address family not supported by protocol", "Address already in use",
   "Cannot assign requested address", "Network is down", "Network is unreachable",
   "Network dropped connection on reset", "Software caused connection abort",
   "Connection reset by peer", "No buffer space available",
   "Transport endpoint is already connected", "Transport endpoint is not connected",
   "Cannot send after transport endpoint shutdown", "Too many references: cannot splice",
   "Connection timed out", "Connection refused", "Host is down", "No route to host",
   "Operation already in progress", "Operation now in progress", "Stale file handle",
   "Structure needs cleaning", "Not a XENIX named type file", "No XENIX semaphores available",
   "Is a named type file", "Remote I/O error", "Disk quota exceeded", "No medium found",
   "Wrong medium type", "Operation canceled", "Required key not available", "Key has expired",
   "Key has been revoked", "Key was rejected by service", "Owner died", "State not recoverable",
   "Operation not possible due to RF-kill", "Memory page has hardware error"]

def name? (number : Nat) : Option String := names[number]?.filter (· ≠ "")

def text (number : Nat) : String := (name? number).getD s!"Unknown error {number}"

/-- Control calls and polls report an error number without a name as 0. -/
def reported (number : Nat) : Nat := if (name? number).isSome then number else 0

end Errno

def Fault.ofControl (errno : Nat) : Fault := .errno (Errno.reported errno)

def Fault.message : Fault → String
  | errno number => Errno.text number ++ s!" (os error {number})"
  | invalidInput => "invalid input parameter"
  | wouldBlock => "operation would block"
  | brokenPipe => "broken pipe"

inductive DemuxError where
  | openFailed (path : String) (fault : Fault)
  | setFilter (pid : Nat) (fault : Fault)
  | exhausted
  /-- Sections were lost before they were read. -/
  | overflow
  | read (fault : Fault)
  | poll (fault : Fault)
  deriving DecidableEq, Repr

def DemuxError.message : DemuxError → String
  | openFailed path fault => s!"Failed to open demux device {path}: {fault.message}"
  | setFilter pid fault =>
    "Failed to set section filter on PID " ++ Hex.word pid ++ s!": {fault.message}"
  | exhausted => "No section filter available"
  | overflow => "Section buffer overflow"
  | read fault => s!"Section read failed: {fault.message}"
  | poll fault => s!"Poll failed: {fault.message}"

inductive TunerError where
  | openFailed (path : String) (fault : Fault)
  | control (operation : String) (fault : Fault)
  | noParameters (frequency : Nat)
  | kindMismatch (frontend transponder : DeliveryKind)
  | unknownType (code : Nat)
  deriving DecidableEq, Repr

def TunerError.message : TunerError → String
  | openFailed path fault => s!"Failed to open frontend {path}: {fault.message}"
  | control operation fault => s!"{operation} failed: {fault.message}"
  | noParameters frequency => s!"Transponder {frequency} has no delivery parameters"
  | kindMismatch frontend transponder =>
    s!"Frontend is {frontend.name}, transponder is {transponder.name}"
  | unknownType code => s!"Unknown frontend type {code}"

end Bandscan
