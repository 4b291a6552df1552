import Lifecycle.Text

/- The catalogue of error codes that handlers report. A code outside it is
   reported as it is; it only raises a warning. -/
namespace Lifecycle.ErrorCode

def catalogue : List Text := [
  "NotUpdatable", "InvalidRequest", "AccessDenied", "InvalidCredentials", "AlreadyExists",
  "NotFound", "ResourceConflict", "Throttling", "ServiceLimitExceeded", "NotStabilized",
  "GeneralServiceException", "ServiceInternalError", "NetworkFailure", "InternalFailure",
  "InvalidTypeConfiguration", "HandlerInternalFailure", "NonCompliant", "Unknown",
  "UnsupportedTarget"]

def isKnown (code : Text) : Bool := catalogue.contains code

end Lifecycle.ErrorCode
