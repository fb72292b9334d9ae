import PicBoard.Capability
import PicBoard.Category
import PicBoard.Digest.Hmac
import PicBoard.Digest.Sha512
import PicBoard.EventKey
import PicBoard.FileTree
import PicBoard.Gateway.Access
import PicBoard.Gateway.Config
import PicBoard.Gateway.Header
import PicBoard.Gateway.Pixels
import PicBoard.Gateway.Refusal
import PicBoard.Gateway.Reply
import PicBoard.Gateway.Sessions
import PicBoard.Gateway.Settings
import PicBoard.Gateway.Startup
import PicBoard.GlyphNumber
import PicBoard.Json.Basic
import PicBoard.Json.Fields
import PicBoard.Json.Glyphs
import PicBoard.Json.Printer
import PicBoard.Json.Reader
import PicBoard.Main
import PicBoard.Media.BitSource
import PicBoard.Media.Bitmap
import PicBoard.Media.Container
import PicBoard.Media.Decode
import PicBoard.Media.Duration
import PicBoard.Media.Encode
import PicBoard.Media.Format
import PicBoard.Media.FrameStream
import PicBoard.Media.Gif
import PicBoard.Media.Image
import PicBoard.Media.Inflate
import PicBoard.Media.Intake
import PicBoard.Media.Jpeg
import PicBoard.Media.Packing
import PicBoard.Media.Pipeline
import PicBoard.Media.Png
import PicBoard.Media.PrefixCode
import PicBoard.Media.Reads
import PicBoard.Media.Tiff
import PicBoard.Media.Tool
import PicBoard.Media.WebP
import PicBoard.Media.Webm
import PicBoard.Operator.Arguments
import PicBoard.Operator.CommandLine
import PicBoard.Operator.Failure
import PicBoard.Operator.Identifiers
import PicBoard.Operator.Login
import PicBoard.Operator.Probing
import PicBoard.Operator.Program
import PicBoard.Operator.Tokens
import PicBoard.Operator.Users
import PicBoard.PixTree
import PicBoard.Proofs.EventKey.Order
import PicBoard.Proofs.EventKey.Reading
import PicBoard.Proofs.FileTree.Walk
import PicBoard.Proofs.FileTree.Write
import PicBoard.Proofs.Gateway.Authorisation
import PicBoard.Proofs.Gateway.Calls
import PicBoard.Proofs.Gateway.Cookie
import PicBoard.Proofs.Gateway.CookieLines
import PicBoard.Proofs.Gateway.FailedRequest
import PicBoard.Proofs.Gateway.ForeignCookies
import PicBoard.Proofs.Gateway.Grants
import PicBoard.Proofs.Gateway.Isolation
import PicBoard.Proofs.Gateway.IssueTimes
import PicBoard.Proofs.Gateway.PixAccess
import PicBoard.Proofs.Gateway.PixCookie
import PicBoard.Proofs.Gateway.Presented
import PicBoard.Proofs.Gateway.Redeemable
import PicBoard.Proofs.Gateway.Refusals
import PicBoard.Proofs.Gateway.Serving
import PicBoard.Proofs.Gateway.SpentOnce
import PicBoard.Proofs.Gateway.Unfit
import PicBoard.Proofs.Gateway.Windows
import PicBoard.Proofs.GlyphNumber.Inverse
import PicBoard.Proofs.GlyphNumber.Order
import PicBoard.Proofs.GlyphNumber.RoundTrip
import PicBoard.Proofs.GlyphNumber.Words
import PicBoard.Proofs.Json.Grammar
import PicBoard.Proofs.Json.Printing
import PicBoard.Proofs.Json.Records
import PicBoard.Proofs.Json.Scalars
import PicBoard.Proofs.Media.Branch
import PicBoard.Proofs.Media.Delivery
import PicBoard.Proofs.Media.Duration
import PicBoard.Proofs.Media.Frames
import PicBoard.Proofs.Media.Policy
import PicBoard.Proofs.Media.Progress
import PicBoard.Proofs.Media.Splitting
import PicBoard.Proofs.Media.Verdict
import PicBoard.Proofs.Operator.Inspection
import PicBoard.Proofs.Operator.Location
import PicBoard.Proofs.Operator.LoginPlan
import PicBoard.Proofs.Operator.Minting
import PicBoard.Proofs.Operator.TokenFile
import PicBoard.Proofs.Operator.UsersFile
import PicBoard.Proofs.Outcome
import PicBoard.Proofs.PixTree.Names
import PicBoard.Proofs.PixTree.Spelling
import PicBoard.Proofs.Session.AgedQueue
import PicBoard.Proofs.Session.Families
import PicBoard.Proofs.Session.LoginNames
import PicBoard.Proofs.Text.Base64Url
import PicBoard.Proofs.Text.Blank
import PicBoard.Proofs.Text.Bytes
import PicBoard.Proofs.Text.Decimal
import PicBoard.Proofs.Time
import PicBoard.Proofs.Time.Conversion
import PicBoard.Proofs.Token.Acceptance
import PicBoard.Proofs.Token.Forgery
import PicBoard.Proofs.Token.Issue
import PicBoard.Proofs.Token.Lifetime
import PicBoard.Proofs.Token.RoundTrip
import PicBoard.Proofs.Token.Validity
import PicBoard.Proofs.Wire.RoundTrip
import PicBoard.Secret.Bcrypt
import PicBoard.Secret.Blowfish
import PicBoard.Secret.PiFraction
import PicBoard.Session.Message
import PicBoard.Session.Store
import PicBoard.Session.User
import PicBoard.Text.Base64Url
import PicBoard.Text.Blank
import PicBoard.Text.Decimal
import PicBoard.Text.Hex
import PicBoard.Text.Quoted
import PicBoard.Text.Shortest
import PicBoard.Text.Unprintable
import PicBoard.Text.Utf8
import PicBoard.Time
import PicBoard.Token.Claims
import PicBoard.Token.Codec
import PicBoard.Token.Issue
import PicBoard.Token.Lifetime
import PicBoard.Token.Payload
import PicBoard.Token.Refusal
import PicBoard.Token.View
import PicBoard.Wire.Base128
import PicBoard.Wire.Field
import PicBoard.Wire.Input
