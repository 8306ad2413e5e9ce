import RunBoard.Json.Record

namespace RunBoard

inductive ErrorCode where
  | resourceDoesNotExist
  | invalidParameterValue
  | permissionDenied
  | internalError
  | unknown
  deriving DecidableEq, Inhabited

namespace ErrorCode

def name : ErrorCode → String
  | resourceDoesNotExist => "RESOURCE_DOES_NOT_EXIST"
  | invalidParameterValue => "INVALID_PARAMETER_VALUE"
  | permissionDenied => "PERMISSION_DENIED"
  | internalError => "INTERNAL_ERROR"
  | unknown => "UNKNOWN"

/-- A code that no client knows reads as unknown. -/
def ofName : String → ErrorCode
  | "RESOURCE_DOES_NOT_EXIST" => resourceDoesNotExist
  | "INVALID_PARAMETER_VALUE" => invalidParameterValue
  | "PERMISSION_DENIED" => permissionDenied
  | "INTERNAL_ERROR" => internalError
  | _ => unknown

def title : ErrorCode → String
  | resourceDoesNotExist => "ResourceDoesNotExist"
  | invalidParameterValue => "InvalidParameterValue"
  | permissionDenied => "PermissionDenied"
  | internalError => "InternalError"
  | unknown => "Unknown"

instance : JsonForm ErrorCode where
  encode code := .str code.name
  decode? j := j.alternative?.map ofName

end ErrorCode

structure ApiError where
  code : ErrorCode
  message : String
  status : Option UInt16
  deriving DecidableEq, Inhabited

namespace ApiError

def new (code : ErrorCode) (message : String) : ApiError := { code, message, status := none }

def notFound (message : String) : ApiError :=
  { code := .resourceDoesNotExist, message, status := some 404 }

def withStatus (e : ApiError) (status : UInt16) : ApiError := { e with status := some status }

def isNotFound (e : ApiError) : Bool := e.code == .resourceDoesNotExist

def describe (e : ApiError) : String := e.code.title ++ ": " ++ e.message

instance : JsonForm ApiError where
  encode e := .obj ([("error_code", encode e.code), ("message", encode e.message)] ++
    (e.status.map fun status => ("status", encode status)).toList)
  decode? j := do
    let [code, message, status] ← j.record? ["error_code", "message", "status"] | none
    return {
      code := ← Json.required? code
      message := ← Json.required? message
      status := ← Json.optional? status }

end ApiError

end RunBoard
