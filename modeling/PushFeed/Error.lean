/-!
# Feed errors

What can go wrong between a schema, a frame and a transport. A truncated frame
and a frame of another topic are kinds of their own, because a channel drops
both without complaint.
-/

namespace PushFeed

/-- An error of the feed. -/
inductive FeedError where
  /-- No schema for a type of a source. -/
  | schemaLoad (source typeName reason : String)
  /-- A frame that is no message of its type. -/
  | decode (reason : String)
  /-- A frame that ends too early. -/
  | truncatedFrame (reason : String)
  /-- A frame of another message type. -/
  | foreignFrame (reason : String)
  /-- A connection that takes no text. -/
  | transport (reason : String)
  /-- A value that is no message of its type, or a request no server could route. -/
  | validation (reason : String)
  /-- A setting that cannot be used. -/
  | config (reason : String)
  deriving DecidableEq, Repr

namespace FeedError

/-- The text of an error. -/
def message : FeedError → String
  | .schemaLoad source typeName reason =>
    "Schema load error (" ++ source ++ " / " ++ typeName ++ "): " ++ reason
  | .decode reason => "Decode error: " ++ reason
  | .truncatedFrame reason => "Truncated frame: " ++ reason
  | .foreignFrame reason => "Foreign frame: " ++ reason
  | .transport reason => "Transport error: " ++ reason
  | .validation reason => "Validation error: " ++ reason
  | .config reason => "Configuration error: " ++ reason

/-- Whether the frame ended too early. -/
def isTruncated : FeedError → Bool
  | .truncatedFrame _ => true
  | _ => false

/-- Whether the frame belongs to another message type. -/
def isForeign : FeedError → Bool
  | .foreignFrame _ => true
  | _ => false

end FeedError

end PushFeed
