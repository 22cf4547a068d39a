import S3Wire.Lib.History
import S3Wire.Lib.Text
import S3Wire.Lib.Percent
import S3Wire.Lib.BinarySearch
import S3Wire.Lib.Slice
import S3Wire.Lib.Base64
import S3Wire.Error
import S3Wire.Http
import S3Wire.Retry.Quota
import S3Wire.Operation.Checksum
import S3Wire.Operation.Multipart
import S3Wire.Protocol.Completion
import S3Wire.Client.Headers
import S3Wire.Client.MultipartUpload.Source
import S3Wire.Client.MultipartUpload.Part
import S3Wire.Client.MultipartUpload.CompletionSize
import S3Wire.Client.MultipartUpload.Worker
import S3Wire.Client.MultipartUpload.Turn
import S3Wire.Client.MultipartUpload.Discipline
import S3Wire.Client.MultipartUpload.Parts
import S3Wire.Client.MultipartUpload.Cancellation
import S3Wire.Client.Recompute
import S3Wire.Stream.Delivery
import S3Wire.Client.Download
import S3Wire.Client.Operation.Headers
import S3Wire.Client.Operation.Listing
import S3Wire.Client.Operation.Resume
import S3Wire.Client.Operation.Union
import S3Wire.Client.Request.Attempts
import S3Wire.Client.Request.Elapsed
import S3Wire.Credentials.Cache
import S3Wire.Signing.Path
import S3Wire.Lib.Words
import S3Wire.Signing.Headers
import S3Wire.Endpoint.Identity
import S3Wire.Client.Presign
import S3Wire.Client.Construction
import S3Wire.Lib.Timespan
import S3Wire.Retry.Delay
import S3Wire.Client.Request.Diagnostics
import S3Wire.Client.Operation.Retrieve
import S3Wire.Client.Operation.Range
import S3Wire.Lib.Crc
import S3Wire.Operation.Calculation
import S3Wire.Client.MultipartUpload.Digests
import S3Wire.Operation.Recording
import S3Wire.Client.MultipartUpload.Bounds
import S3Wire.Protocol.UrlField
import S3Wire.Client.Operation.CopySource
import S3Wire.Lib.Gather
import S3Wire.Client.Request.Collect
import S3Wire.Stream.Received
import S3Wire.Client.Operation.Metadata
import S3Wire.Lib.Fleet
import S3Wire.Client.Fleet
import S3Wire.Protocol.Results
import S3Wire.Client.Operation.Conclude
import S3Wire.Client.MultipartUpload.Storage
import S3Wire.Protocol.Record
import S3Wire.Client.MultipartUpload.CompletionRead
import S3Wire.Lib.Cursor
import S3Wire.Client.Operation.Browse
import S3Wire.Client.Operation.BrowseUploads
import S3Wire.Client.Request.Admission
import S3Wire.Client.Operation.Dispatch
import S3Wire.Client.Grant
import S3Wire.Client.Tampered
