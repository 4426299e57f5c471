import StackFlow.ErrorKind
import StackFlow.Store.Server

/-!
Why a store does not answer.
-/

namespace StackFlow

/-- What an indexed store was about when its server failed. -/
inductive StoreWork where
  | save
  | load
  | delete
  | prune
  | list

inductive StoreError where
  | notFound
  /-- A layer of the store refuses the call. -/
  | refused (reason : String)
  | notSealed (id : String)
  | badCiphertext
  | noKeyFits (id : String)
  | badPlaintext
  /-- The stored text is not that of a report. -/
  | malformed
  | server (work : StoreWork) (cause : ServerError)

def StoreError.message : StoreError → String
  | .notFound => "report not found"
  | .refused reason => reason
  | .notSealed id => "report is missing sealed data: " ++ id
  | .badCiphertext => "failed to decode ciphertext: not Base64 text"
  | .noKeyFits id => "failed to decrypt report " ++ id ++ ": decryption failed with all available keys"
  | .badPlaintext => "failed to unmarshal decrypted report: not a report"
  | .malformed => "failed to unmarshal report: not a report"
  | .server .save e => "failed to save to redis: " ++ e.message
  | .server .load e => "failed to get from redis: " ++ e.message
  | .server .delete e => e.message
  | .server .prune e => "failed to prune expired reports: " ++ e.message
  | .server .list e => "failed to list reports: " ++ e.message

def StoreError.kind : StoreError → ErrorKind
  | .notFound => .reportNotFound
  | .notSealed _ => .notSealed
  | .server _ .canceled => .canceled
  | _ => .other

end StackFlow
