namespace EventReporter

/-!
# Datagram sockets

What a sender asks of the operating system, as operations on the state `σ` of whatever is out
there: a network may answer each request as it likes, and what it answers is its own affair. The
faults that it may report are known by their number, with the text that the system gives for each.

* `Fault.message` : the wording of a fault.
* `Network.Records` : which datagrams have arrived, as far as a network tells.
* `isAddress` : whether the path of a socket fits an address.
-/

/-! ### Faults -/

/-- A failed request to the operating system. -/
inductive Fault where
  /-- The system's error with this number. -/
  | errno (code : Int)
  /-- A socket path that no address has room for. -/
  | pathTooLong
deriving DecidableEq, Repr

namespace Fault

/-- The system's texts. -/
def texts : List (Nat × String) :=
  [(0, "Success"), (1, "Operation not permitted"), (2, "No such file or directory"),
    (3, "No such process"), (4, "Interrupted system call"), (5, "Input/output error"),
    (6, "No such device or address"), (7, "Argument list too long"), (8, "Exec format error"),
    (9, "Bad file descriptor"), (10, "No child processes"),
    (11, "Resource temporarily unavailable"), (12, "Cannot allocate memory"),
    (13, "Permission denied"), (14, "Bad address"), (15, "Block device required"),
    (16, "Device or resource busy"), (17, "File exists"), (18, "Invalid cross-device link"),
    (19, "No such device"), (20, "Not a directory"), (21, "Is a directory"),
    (22, "Invalid argument"), (23, "Too many open files in system"), (24, "Too many open files"),
    (25, "Inappropriate ioctl for device"), (26, "Text file busy"), (27, "File too large"),
    (28, "No space left on device"), (29, "Illegal seek"), (30, "Read-only file system"),
    (31, "Too many links"), (32, "Broken pipe"), (33, "Numerical argument out of domain"),
    (34, "Numerical result out of range"), (35, "Resource deadlock avoided"),
    (36, "File name too long"), (37, "No locks available"), (38, "Function not implemented"),
    (39, "Directory not empty"), (40, "Too many levels of symbolic links"),
    (42, "No message of desired type"), (43, "Identifier removed"),
    (44, "Channel number out of range"), (45, "Level 2 not synchronized"), (46, "Level 3 halted"),
    (47, "Level 3 reset"), (48, "Link number out of range"), (49, "Protocol driver not attached"),
    (50, "No CSI structure available"), (51, "Level 2 halted"), (52, "Invalid exchange"),
    (53, "Invalid request descriptor"), (54, "Exchange full"), (55, "No anode"),
    (56, "Invalid request code"), (57, "Invalid slot"), (59, "Bad font file format"),
    (60, "Device not a stream"), (61, "No data available"), (62, "Timer expired"),
    (63, "Out of streams resources"), (64, "Machine is not on the network"),
    (65, "Package not installed"), (66, "Object is remote"), (67, "Link has been severed"),
    (68, "Advertise error"), (69, "Srmount error"), (70, "Communication error on send"),
    (71, "Protocol error"), (72, "Multihop attempted"), (73, "RFS specific error"),
    (74, "Bad message"), (75, "Value too large for defined data type"),
    (76, "Name not unique on network"), (77, "File descriptor in bad state"),
    (78, "Remote address changed"), (79, "Can not access a needed shared library"),
    (80, "Accessing a corrupted shared library"), (81, ".lib section in a.out corrupted"),
    (82, "Attempting to link in too many shared libraries"),
    (83, "Cannot exec a shared library directly"),
    (84, "Invalid or incomplete multibyte or wide character"),
    (85, "Interrupted system call should be restarted"), (86, "Streams pipe error"),
    (87, "Too many users"), (88, "Socket operation on non-socket"),
    (89, "Destination address required"), (90, "Message too long"),
    (91, "Protocol wrong type for socket"), (92, "Protocol not available"),
    (93, "Protocol not supported"), (94, "Socket type not supported"),
    (95, "Operation not supported"), (96, "Protocol family not supported"),
    (97, "Address family not supported by protocol"), (98, "Address already in use"),
    (99, "Cannot assign requested address"), (100, "Network is down"),
    (101, "Network is unreachable"), (102, "Network dropped connection on reset"),
    (103, "Software caused connection abort"), (104, "Connection reset by peer"),
    (105, "No buffer space available"), (106, "Transport endpoint is already connected"),
    (107, "Transport endpoint is not connected"),
    (108, "Cannot send after transport endpoint shutdown"),
    (109, "Too many references: cannot splice"), (110, "Connection timed out"),
    (111, "Connection refused"), (112, "Host is down"), (113, "No route to host"),
    (114, "Operation already in progress"), (115, "Operation now in progress"),
    (116, "Stale file handle"), (117, "Structure needs cleaning"),
    (118, "Not a XENIX named type file"), (119, "No XENIX semaphores available"),
    (120, "Is a named type file"), (121, "Remote I/O error"), (122, "Disk quota exceeded"),
    (123, "No medium found"), (124, "Wrong medium type"), (125, "Operation canceled"),
    (126, "Required key not available"), (127, "Key has expired"), (128, "Key has been revoked"),
    (129, "Key was rejected by service"), (130, "Owner died"), (131, "State not recoverable"),
    (132, "Operation not possible due to RF-kill"), (133, "Memory page has hardware error")]

/-- The system's text for an error number. -/
def text (code : Int) : String :=
  match code.toNat?.bind (List.lookup · texts) with
  | some s => s
  | none => s!"Unknown error {code}"

/-- The wording of a fault. -/
def message : Fault → String
  | errno code => s!"{text code} (os error {code})"
  | pathTooLong => "path must be shorter than SUN_LEN"

/-- There is no such file or directory. -/
def notFound : Fault := errno 2

/-- The request was interrupted. -/
def interrupted : Fault := errno 4

/-- The request would have to wait. -/
def wouldBlock : Fault := errno 11

/-- A file stands where a directory should be. -/
def notDirectory : Fault := errno 20

/-- A directory stands where a file should be. -/
def isDirectory : Fault := errno 21

/-- The request makes no sense. -/
def invalid : Fault := errno 22

/-- A name is too long for a file. -/
def nameTooLong : Fault := errno 36

/-- Nobody listens. -/
def refused : Fault := errno 111

/-- Whether the same request may succeed a moment later. -/
def isTransient (f : Fault) : Bool :=
  f == wouldBlock || f == interrupted

end Fault

/-! ### Networks -/

/-- The requests that a sender makes, with the answers of the outside. -/
structure Network (σ : Type) where
  /-- Opens a socket that does not wait. -/
  openSocket : σ → Except Fault Unit × σ
  /-- Asks for room for so many bytes on the way out. -/
  reserve : Nat → σ → Except Fault Unit × σ
  /-- Sends one datagram to the socket at a path. -/
  sendTo : String → List UInt8 → σ → Except Fault Unit × σ

/-- What arrives somewhere: the path of a socket, and the bytes. -/
abbrev Datagram := String × List UInt8

/-- `arrived` tells from the state of the outside which datagrams have arrived, in order: those
    whose sending was answered with success, and each of them once. -/
structure Network.Records {σ : Type} (net : Network σ) (arrived : σ → List Datagram) : Prop where
  /-- Nothing arrives because a socket is opened. -/
  openSocket (w : σ) : arrived (net.openSocket w).2 = arrived w
  /-- Nothing arrives because there is room. -/
  reserve (size : Nat) (w : σ) : arrived (net.reserve size w).2 = arrived w
  /-- A datagram arrives if its sender is told so. -/
  sendTo (path : String) (bytes : List UInt8) (w : σ) :
    arrived (net.sendTo path bytes w).2
      = arrived w ++ if (net.sendTo path bytes w).1.isOk then [(path, bytes)] else []

/-- The bytes of an address that hold its path. -/
def addressBytes : Nat := 108

/-- Whether an address has room for a path. Behind an ordinary path there has to be room for a
    zero; a path that starts with a zero names no file and goes without. -/
def isAddress (path : String) : Bool :=
  match path.toList with
  | [] => true
  | '\x00' :: _ => decide (path.utf8ByteSize ≤ addressBytes)
  | _ => decide (path.utf8ByteSize < addressBytes)

end EventReporter
