import FleetSnapshot.Bucket
import FleetSnapshot.Config
import FleetSnapshot.Text.Expand
/-!
How the object storage is reached. What the configuration leaves empty comes from the environment,
where an empty variable counts as unset; the keys come from there alone.
-/

namespace FleetSnapshot.Bucket

structure Settings where
  endpoint : String
  region : String
  bucketName : String
  rootPrefix : String
  accessKey : String
  secretKey : String
  deriving DecidableEq, Repr

def nonEmpty (s : String) : Option String := if s.isEmpty then none else some s

def fromEnv (env : Text.Env) (name : String) : Option String := (env name).bind nonEmpty

namespace Settings

def bucketName? (c : Config.Storage) (env : Text.Env) : Option String :=
  (nonEmpty c.bucketName).or (fromEnv env "S3_BUCKET_NAME")

def resolve (c : Config.Storage) (env : Text.Env) : Except Error Settings := do
  let some endpoint := (nonEmpty c.endpoint).or (fromEnv env "S3_ENDPOINT_URL")
    | throw (.storage "S3 endpoint not set in config or S3_ENDPOINT_URL")
  let some accessKey := fromEnv env "AWS_ACCESS_KEY_ID"
    | throw (.storage "access key not set in AWS_ACCESS_KEY_ID environment variable")
  let some secretKey := fromEnv env "AWS_SECRET_ACCESS_KEY"
    | throw (.storage "secret key not set in AWS_SECRET_ACCESS_KEY environment variable")
  return {
    endpoint, accessKey, secretKey
    region := ((nonEmpty c.region).or (fromEnv env "AWS_DEFAULT_REGION")).getD "us-east-1"
    bucketName := (bucketName? c env).getD ""
    rootPrefix := Bucket.rootPrefix c.rootPrefix }

end Settings

end FleetSnapshot.Bucket
