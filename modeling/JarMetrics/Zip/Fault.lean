/-!
# What can be wrong with a zip archive
-/

namespace JarMetrics

/-- Why reading zip data failed. -/
inductive ZipFault
  /-- The bytes are no zip archive, or contradict themselves. -/
  | notZip
  /-- The entry is compressed in a way that cannot be undone here. -/
  | unsupportedMethod
  | checksum
  /-- The data ends in the middle of something. -/
  | unexpectedEnd
  /-- The data ends before something. -/
  | endOfData
  /-- Something is said to stand before the first byte. -/
  | beforeStart
  /-- The compressed data is malformed. -/
  | corruptData
  deriving Repr, DecidableEq

/-- The wording of a zip fault. -/
def ZipFault.message : ZipFault → String
  | .notZip => "zip: not a valid zip file"
  | .unsupportedMethod => "zip: unsupported compression algorithm"
  | .checksum => "zip: checksum error"
  | .unexpectedEnd => "unexpected EOF"
  | .endOfData => "EOF"
  | .beforeStart => "bytes.Reader.ReadAt: negative offset"
  | .corruptData => "flate: corrupt input"

end JarMetrics
