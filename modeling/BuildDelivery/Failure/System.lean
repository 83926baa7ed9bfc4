/-! What goes wrong outside the program: with files, with streams and on the network. -/

set_option autoImplicit false

namespace BuildDelivery

/-- Faults of files, streams and the network. -/
inductive SystemFault where
  | notFound
  | alreadyExists
  | notADirectory
  | isADirectory
  | invalidArgument
  | nameTooLong
  | networkUnreachable
  | nulInName
  | badAddress
  | badPort
  | notText
  /-- A stream ended before the bytes that were asked for, and the reader waited for each. -/
  | shortRead
  /-- A stream ended before the bytes that were asked for. -/
  | earlyEnd
  /-- The peer said nothing for as long as it is allowed to. -/
  | idle
  | walking (path : String) (cause : SystemFault)
  | other (text : String)
  deriving DecidableEq, Repr

namespace SystemFault

def message : SystemFault → String
  | notFound => "No such file or directory (os error 2)"
  | alreadyExists => "File exists (os error 17)"
  | notADirectory => "Not a directory (os error 20)"
  | isADirectory => "Is a directory (os error 21)"
  | invalidArgument => "Invalid argument (os error 22)"
  | nameTooLong => "File name too long (os error 36)"
  | networkUnreachable => "Network is unreachable (os error 101)"
  | nulInName => "file name contained an unexpected NUL byte"
  | badAddress => "invalid socket address"
  | badPort => "invalid port value"
  | notText => "stream did not contain valid UTF-8"
  | shortRead => "failed to fill whole buffer"
  | earlyEnd => "early eof"
  | idle => "deadline has elapsed"
  | walking path cause => "IO error for operation on " ++ path ++ ": " ++ cause.message
  | other text => text

/-- The stream ended, as opposed to failing. -/
def isEndOfStream : SystemFault → Bool
  | shortRead | earlyEnd => true
  | _ => false

end SystemFault

end BuildDelivery
